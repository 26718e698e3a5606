import Keyfob.Session.Basic

/-!
# Ports

A port is a link with its session. Serving a port hands the lines that have arrived to the
session one by one. A line that fails is answered with an error where the link still works, its
dialog is dropped, everything held on the host is let go, and the later lines are served all
the same. Only a link that cannot be read ends the service, or a crash: the program stops, and the
later lines that were taken with the one that crashed are lost.
-/
namespace Keyfob

/-- The reply that tells of a failure, where the link is not what failed. -/
def SessionError.reply? : SessionError → Option Text
  | hid _ => some "ERROR: HID output failed"
  | file _ => some "ERROR: File read failed"
  | link _ => none

/-- A link with its session. -/
structure Port where
  /-- The link. -/
  link : LineLink
  /-- The session. -/
  session : Session := { kind := link.kind }
  /-- Why lines failed, the latest first. -/
  failures : List SessionError := []
deriving DecidableEq

namespace Port

variable {δ κ φ : Type} [Device δ] [KeyValueStore κ] [FileStore φ]

/-- The port with what its link wrote forgotten. -/
def drained (port : Port) : Port := { port with link := port.link.drained }

/-- Put the port and the shared parts in order after a line that failed. -/
def recover (e : SessionError) (port : Port) (core : Core δ κ φ) : Port × Core δ κ φ :=
  let link :=
    match e.reply? with
    | some t => (port.link.sendLine t).2
    | none => port.link
  ({ link := link, session := port.session.abort, failures := e :: port.failures },
    { core with device := (Device.perform .releaseAll core.device).2 })

/-- Handle one line. After a failure everything is put in order; after a crash nothing is. -/
def serveLine (port : Port) (core : Core δ κ φ) (line : Line) :
    Except Crash Unit × Port × Core δ κ φ :=
  match port.session.handle line core port.link with
  | (.ok (), session, core, link) => (.ok (), { port with link := link, session := session }, core)
  | (.error (.error e), session, core, link) =>
    (.ok (), recover e { port with link := link, session := session } core)
  | (.error (.crash crash), session, core, link) =>
    (.error crash, { port with link := link, session := session }, core)

/-- Handle lines in order, as long as none crashes. -/
def serveLines : List Line → Port → Core δ κ φ → Except Crash Unit × Port × Core δ κ φ
  | [], port, core => (.ok (), port, core)
  | line :: lines, port, core =>
    match port.serveLine core line with
    | (.ok (), port, core) => serveLines lines port core
    | (.error crash, port, core) => (.error crash, port, core)

/-- Handle the lines that have arrived, all of them or no more than a cap. -/
def serve (port : Port) (cap : Option Nat) (core : Core δ κ φ) :
    Except (Fault LinkError) Unit × Port × Core δ κ φ :=
  match port.link.drain cap with
  | (.error e, link) => (.error (.error e), { port with link := link }, core)
  | (.ok lines, link) =>
    let (result, port, core) := serveLines lines { port with link := link } core
    (result.mapError .crash, port, core)

end Port

end Keyfob
