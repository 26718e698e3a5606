import Keyfob.Proofs.Session.Serving

/-!
# What a line lets show

A veil says which credentials, held or stored, are to look alike (`Veil`): there are as many of
them, and a store takes and refuses the same changes. Two devices that differ only behind a veil
serve a line alike (`Session.serve_veiled`): they send the same, do the same on the host, and leave
the session waiting for the same, unless the line is the right code before a listing.
-/
namespace Keyfob

/-- Which credentials look alike, and which stores. -/
structure Veil (κ : Type) [KeyValueStore κ] where
  /-- Credentials that look alike. -/
  held : Credentials → Credentials → Prop
  /-- Stores that look alike. -/
  stored : κ → κ → Prop
  /-- Credentials look like themselves. -/
  refl : ∀ credentials, held credentials credentials
  /-- There are as many credentials. -/
  count : ∀ {credentials others : Credentials}, held credentials others →
    others.list.length = credentials.list.length
  /-- A login code is stored just where one is. -/
  coded : ∀ {store other : κ}, stored store other →
    (AccessCodes.stored? other).isSome = (AccessCodes.stored? store).isSome
  /-- A change goes the same way, and leaves stores that look alike. -/
  changes : ∀ {store other : κ}, stored store other → ∀ change : KeyValueStore.Change,
    (KeyValueStore.apply other change).1 = (KeyValueStore.apply store change).1 ∧
      stored (KeyValueStore.apply store change).2 (KeyValueStore.apply other change).2

namespace Veil

variable {δ κ φ ρ : Type} [KeyValueStore κ]

/-- Shared parts that are the same but for credentials, held and stored, that look alike. -/
inductive Alike (veil : Veil κ) (core : Core δ κ φ) : Core δ κ φ → Prop where
  /-- The credentials that are held look alike, and so do the stores. -/
  | keeping {others : Credentials} {store : κ} (held : veil.held core.credentials others)
    (stored : veil.stored core.store store) : Alike veil core (core.keeping others store)

section Changes

variable {veil : Veil κ} {store other : κ} (alike : veil.stored store other)

include alike

/-- Changes go the same way, and leave stores that look alike. -/
theorem applyAll (changes : List KeyValueStore.Change) :
    (KeyValueStore.applyAll changes other).1 = (KeyValueStore.applyAll changes store).1 ∧
      veil.stored (KeyValueStore.applyAll changes store).2
        (KeyValueStore.applyAll changes other).2 := by
  induction changes generalizing store other with
  | nil => exact ⟨rfl, alike⟩
  | cons change changes ih =>
    obtain ⟨result, still⟩ := veil.changes alike change
    unfold KeyValueStore.applyAll
    cases first : KeyValueStore.apply store change with
    | mk outcome after =>
      cases second : KeyValueStore.apply other change with
      | mk outcome' after' =>
        rw [first, second] at result still
        cases result
        cases outcome with
        | ok _ => exact ih still
        | error e => exact ⟨rfl, still⟩

/-- An update goes the same way, and leaves credentials that look alike. -/
theorem update {credentials others : Credentials} (held : veil.held credentials others)
    (data : Text) :
    (others.update data other).1 = (credentials.update data store).1 ∧
      veil.held (credentials.update data store).2.1 (others.update data other).2.1 ∧
      veil.stored (credentials.update data store).2.2 (others.update data other).2.2 := by
  obtain ⟨result, still⟩ := applyAll alike
    (Credential.replacement ((Credential.parse data).take Credential.capacity))
  unfold Credentials.update Credentials.replaceAll
  dsimp only
  cases first : KeyValueStore.applyAll
      (Credential.replacement ((Credential.parse data).take Credential.capacity)) store with
  | mk outcome after =>
    cases second : KeyValueStore.applyAll
        (Credential.replacement ((Credential.parse data).take Credential.capacity)) other with
    | mk outcome' after' =>
      rw [first, second] at result still
      cases result
      cases outcome with
      | ok _ => exact ⟨rfl, veil.refl _, still⟩
      | error e => exact ⟨rfl, held, still⟩

end Changes

end Veil

namespace Session

variable {δ κ φ ρ : Type} [KeyValueStore κ]

/-- Two ways in which the handling of a line came out look alike behind a veil. -/
structure Matches (veil : Veil κ)
    (outcome other : Except (Fault SessionError) Unit × Exchange δ κ φ ρ) : Prop where
  /-- The line failed in the same way, or in neither. -/
  result : other.1 = outcome.1
  /-- The session waits for the same. -/
  state : other.2.state = outcome.2.state
  /-- The same was sent. -/
  port : other.2.port = outcome.2.port
  /-- The shared parts look alike. -/
  core : veil.Alike outcome.2.core other.2.core

section Parts

variable {veil : Veil κ} {core : Core δ κ φ} {others : Credentials} {store : κ}
  [ReplyPort ρ] (held : veil.held core.credentials others) (stored : veil.stored core.store store)

include held stored

/-- Credentials that are sent are taken alike. -/
theorem matches_credentials (t : Text) (state : SessionState) (port : ρ) :
    Matches veil (Handling.answer .credentials t ⟨state, core, port⟩)
      (Handling.answer .credentials t ⟨state, core.keeping others store, port⟩) := by
  obtain ⟨result, held, stored⟩ := Veil.update stored held t
  rw [Handling.answer_credentials, Handling.answer_credentials]
  dsimp only [Core.keeping, Handling.reply, Exchange.answered]
  rw [result]
  exact ⟨rfl, rfl, rfl, .keeping held stored⟩

/-- A login code that is sent is taken alike. -/
theorem matches_newCode (t : Text) (state : SessionState) (port : ρ) :
    Matches veil (Handling.answer .newCode t ⟨state, core, port⟩)
      (Handling.answer .newCode t ⟨state, core.keeping others store, port⟩) := by
  rw [Handling.answer_newCode, Handling.answer_newCode]
  cases Pin.strict? t with
  | none => exact ⟨rfl, rfl, rfl, .keeping held stored⟩
  | some pin =>
    obtain ⟨result, stored⟩ := Veil.applyAll stored (AccessCodes.changes pin)
    dsimp only [AccessCodes.setPrimary, Core.keeping]
    rw [result]
    exact ⟨rfl, rfl, rfl, .keeping held stored⟩

variable [Device δ] [FileStore φ]

/-- What is discreet comes out alike. -/
theorem matches_discreet {allowed : SessionState → Prop} {handling : Handling δ κ φ ρ Unit}
    (discreet : handling.Discreet allowed) (state : SessionState) (port : ρ) :
    Matches veil (handling ⟨state, core, port⟩)
      (handling ⟨state, core.keeping others store, port⟩) := by
  have kept := discreet.keeps ⟨state, core, port⟩
  have hidden : handling ⟨state, core.keeping others store, port⟩ = _ :=
    discreet.hides ⟨state, core, port⟩ others store ⟨veil.count held, veil.coded stored⟩
  rw [hidden]
  refine ⟨rfl, rfl, rfl, .keeping ?_ ?_⟩
  · exact kept.credentials ▸ held
  · exact kept.store ▸ stored

end Parts

variable [Device δ] [FileStore φ] [ReplyPort ρ]

section Veiled

variable {veil : Veil κ} {core other : Core δ κ φ} (alike : veil.Alike core other)
  (session : Session) (line : Line) (port : ρ)
  (unlisted : ¬(session.state = .asking .codeForListing ∧ line.isAside session.kind = false ∧
    Pin.lenient line.text.trim = core.codes.primary))

include alike unlisted

/-- A line is handled alike, unless it is the right code before a listing. -/
theorem handled_veiled :
    Matches veil (session.handled line core port) (session.handled line other port) := by
  obtain ⟨held, stored⟩ := alike
  cases form session line core port with
  | discreet before handling kept discreet handles =>
    rw [show session.handled line core port = handling ⟨before, core, port⟩ from
      handles core.credentials core.store, handles _ _]
    exact matches_discreet held stored discreet before port
  | lists waiting significant right handles => exact absurd ⟨waiting, significant, right⟩ unlisted
  | updates waiting handles =>
    rw [show session.handled line core port = _ from handles core.credentials core.store,
      handles _ _]
    exact matches_credentials held stored line.text.trim session.state port
  | chooses waiting handles =>
    rw [show session.handled line core port = _ from handles core.credentials core.store,
      handles _ _]
    exact matches_newCode held stored line.text.trim session.state port

end Veiled

end Session

end Keyfob
