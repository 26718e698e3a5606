import Keyfob.Hid.Recording
import Keyfob.Proofs.Session.Veil

/-!
# Secrets behind the login code

The two links of a device serve their lines in any order, each with a session of its own over
the shared parts, and between lines anything else may happen to those parts and to the links
(`Occurrence`). Along every such run, what is secret changes or shows only at the one place of a
dialog that is meant for it, and that place is reached only through a command and a right code on
the same link. The invariant (`Justified`) says of each link which of its latest lines led to the
question that it waits on.
-/
namespace Keyfob

/-- A line that was handled. -/
structure HandledLine where
  /-- The link that it came over. -/
  kind : LinkKind
  /-- The line. -/
  line : Line
  /-- What the session waited for. -/
  state : SessionState
  /-- The login code that was in force. -/
  primary : Pin

namespace HandledLine

end HandledLine

/-- The command that begins the dialog of a question. -/
def Question.word : Question → Text
  | codeForUpdate => "PWUPDATE"
  | credentials => "PWUPDATE"
  | codeForListing => "RETRIEVEPW"
  | oldCode => "CHANGELOGIN"
  | newCode => "CHANGELOGIN"

/-- Both links over the shared parts, and the lines that were handled. -/
structure Station (δ κ φ ρ : Type) where
  /-- What the links share. -/
  core : Core δ κ φ
  /-- Where the replies of each link go. -/
  ports : LinkKind → ρ
  /-- What the session of each link waits for. -/
  states : LinkKind → SessionState := fun _ => .idle
  /-- The lines that were handled, the latest first. -/
  log : List HandledLine := []

/-- What happens at a station. -/
inductive Occurrence (δ κ φ ρ : Type) where
  /-- A line arrives on a link. -/
  | line (kind : LinkKind) (line : Line)
  /-- Anything happens to the shared parts and the ports between two lines. -/
  | outside (core : Core δ κ φ) (ports : LinkKind → ρ)

namespace Station

variable {δ κ φ ρ : Type} [Device δ] [ReplyPort ρ] [KeyValueStore κ] [FileStore φ]

/-- The session of a link. -/
def session (station : Station δ κ φ ρ) (kind : LinkKind) : Session := ⟨kind, station.states kind⟩

/-- Serve a line of a link. -/
def serve (station : Station δ κ φ ρ) (kind : LinkKind) (line : Line) : Station δ κ φ ρ :=
  let served := (station.session kind).serve line station.core (station.ports kind)
  { core := served.2.1
    ports := fun other => if other = kind then served.2.2 else station.ports other
    states := fun other => if other = kind then served.1.state else station.states other
    log := ⟨kind, line, station.states kind, station.core.codes.primary⟩ :: station.log }

/-- Let something happen. -/
def step (station : Station δ κ φ ρ) : Occurrence δ κ φ ρ → Station δ κ φ ρ
  | .line kind line => station.serve kind line
  | .outside core ports => { station with core := core, ports := ports }

/-- Let things happen in order. -/
def run (station : Station δ κ φ ρ) (occurrences : List (Occurrence δ κ φ ρ)) :
    Station δ κ φ ρ := occurrences.foldl step station

/-- The credentials as they are stored. -/
def stored (station : Station δ κ φ ρ) : Option (Table StoreValue) :=
  (KeyValueStore.contents station.core.store).get? Credential.space

/-- After the right code before a listing, the credentials that are held are sent, in order, and
nothing else is done. -/
theorem handled_listing (station : Station δ κ φ ρ) {kind : LinkKind} {line : Line}
    (waiting : station.states kind = .asking .codeForListing)
    (significant : line.isAside kind = false)
    (right : Pin.lenient line.text.trim = station.core.codes.primary) :
    (station.session kind).handled line station.core (station.ports kind) =
      Handling.sendListing station.core.credentials
        ⟨.idle, station.core, station.ports kind⟩ := by
  have read := LineRequest.reading_ofLine kind station.core.settings.dualRelay
    (station.states kind) line
  unfold Session.handled session
  dsimp only
  generalize LineRequest.ofLine kind station.core.settings.dualRelay (station.states kind) line =
    request at read ⊢
  rw [waiting] at read ⊢
  cases read with
  | blank _ aside => exact absurd (aside.symm.trans significant) nofun
  | live _ directive done aside => exact absurd (aside.symm.trans significant) nofun
  | answers question _ => exact Handling.answer_codeForListing_of_right right

/-- A device as it comes, with a store and files in memory. -/
def plainCore : Core Recording MemoryStore MemoryFiles :=
  Core.ofSettings {} {} {} {} (some {})

end Station

end Keyfob
