import Keyfob.Access.Credential
import Keyfob.Link.LineLink
import Keyfob.Player
import Keyfob.Recorder
import Keyfob.Session.Request

/-!
# Exchanges

While a line is handled, a session has its own state, the port that its replies go to, and the
parts of the device that all front ends share. Handling a line is a computation over these
three that can fail at any reply, action or file, or crash in the middle of a file; what was done
before stays done.
-/
namespace Keyfob

/-- Where replies go. -/
class ReplyPort (ρ : Type) where
  /-- Send one reply. -/
  reply : Text → ρ → Except LinkError Unit × ρ

instance : ReplyPort LineLink := ⟨fun t link => link.sendLine t⟩

/-- Replies that are kept instead of being sent. -/
structure ReplyLog where
  /-- The replies so far, the latest first. -/
  latest : List Text := []
  /-- How many more replies are accepted. -/
  allowance : Allowance := none
deriving DecidableEq

namespace ReplyLog

/-- The replies so far, in order. -/
def replies (log : ReplyLog) : List Text := log.latest.reverse

instance : ReplyPort ReplyLog where
  reply t log :=
    match log.allowance.spend? with
    | none => (.error .closed, log)
    | some allowance => (.ok (), { latest := t :: log.latest, allowance := allowance })

end ReplyLog

/-- What all front ends of the device share. -/
structure Core (δ κ φ : Type) where
  /-- What the owner has chosen. -/
  settings : Settings
  /-- The device that acts on the host. -/
  device : δ
  /-- What runs macro text. -/
  macros : MacroEngine
  /-- What plays files. -/
  player : Player
  /-- The store. -/
  store : κ
  /-- The credentials as they are held in memory. -/
  credentials : Credentials
  /-- The codes. -/
  codes : AccessCodes
  /-- The macro files, while there is a place for them. -/
  files : Option φ
  /-- What records live actions. -/
  recorder : Recorder := {}
  /-- The time. -/
  now : Instant := 0

/-- The shared parts as they are when the device starts, with what the store holds read. -/
def Core.ofSettings {δ κ φ : Type} [KeyValueStore κ] (settings : Settings) (codes : AccessCodes)
    (device : δ) (store : κ) (files : Option φ) : Core δ κ φ where
  settings := settings
  device := device
  macros := MacroEngine.ofSpeed settings.typingSpeed
  player := { script := { budget := settings.scriptBudget }, pacing := settings.filePacing }
  store := store
  credentials := Credentials.load store
  codes := codes
  files := files

/-- What the handling of one line works on. -/
structure Exchange (δ κ φ ρ : Type) where
  /-- What the session waits for. -/
  state : SessionState
  /-- What all front ends share. -/
  core : Core δ κ φ
  /-- Where replies go. -/
  port : ρ

/-- Why a line was not handled to its end. -/
inductive SessionError where
  /-- The device refused an action. -/
  | hid (error : HidError)
  /-- A reply could not be sent. -/
  | link (error : LinkError)
  /-- A file could not be read to be played. -/
  | file (error : FileError)
deriving DecidableEq

/-- The error of a session that a failed playback is. -/
def SessionError.ofPlayback : PlaybackError → SessionError
  | .file e => .file e
  | .hid e => .hid e

/-- The handling of a line, or a part of it. -/
abbrev Handling (δ κ φ ρ : Type) : Type → Type :=
  ExceptT (Fault SessionError) (StateM (Exchange δ κ φ ρ))

namespace Handling

variable {δ κ φ ρ α ε : Type}

/-- Do something with the shared parts. -/
def share (fault : ε → Fault SessionError) (f : Core δ κ φ → Except ε α × Core δ κ φ) :
    Handling δ κ φ ρ α := fun exchange =>
  let (result, core) := f exchange.core
  (result.mapError fault, { exchange with core := core })

/-- Do something with the store where what fails is an answer and not a failure. -/
def attempt (f : Core δ κ φ → α × Core δ κ φ) : Handling δ κ φ ρ α := fun exchange =>
  let (result, core) := f exchange.core
  (.ok result, { exchange with core := core })

/-- Look at the shared parts. -/
def look (f : Core δ κ φ → α) : Handling δ κ φ ρ α := attempt fun core => (f core, core)

/-- Wait for something else from now on. -/
def become (state : SessionState) : Handling δ κ φ ρ Unit := fun exchange =>
  (.ok (), { exchange with state := state })

/-- Send one reply. -/
def reply [ReplyPort ρ] (t : Text) : Handling δ κ φ ρ Unit := fun exchange =>
  let (result, port) := ReplyPort.reply t exchange.port
  (result.mapError (.error ∘ .link), { exchange with port := port })

/-- Send replies in order. -/
def replyAll [ReplyPort ρ] : List Text → Handling δ κ φ ρ Unit
  | [] => pure ()
  | t :: ts => do
    reply t
    replyAll ts

/-- Let the macro engine work on the device. -/
def runMacros (f : MacroEngine → δ → Except HidError Unit × MacroEngine × δ) :
    Handling δ κ φ ρ Unit :=
  share (.error ∘ .hid) fun core =>
    let (result, macros, device) := f core.macros core.device
    (result, { core with macros := macros, device := device })

/-- Carry out actions on the device. -/
def perform [Device δ] (actions : List Action) : Handling δ κ φ ρ Unit :=
  share (.error ∘ .hid) fun core =>
    let (result, device) := performAll actions core.device
    (result, { core with device := device })

end Handling

end Keyfob
