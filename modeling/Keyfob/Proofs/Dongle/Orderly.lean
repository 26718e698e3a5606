import Keyfob.Proofs.Dongle.Pass
import Keyfob.Proofs.Session.Orderly

/-!
# What a device leaves as it should be

Lines and presses leave the settings as they are and a restful host at rest, whatever fails
(`Dongle.serveLine_orderly`, `Dongle.press_orderly`).
-/
namespace Keyfob

variable {δ κ φ : Type}

/-- The settings stay, and the host stays at rest. -/
structure Core.StaysOrderly (rest : δ → Prop) (before after : Core δ κ φ) : Prop where
  /-- The settings stay. -/
  settings : after.settings = before.settings
  /-- The host stays at rest. -/
  rests : rest before.device → rest after.device

namespace Dongle

variable {rest : δ → Prop} (dongle : Dongle δ κ φ)

/-- Showing the pad does nothing to the shared parts. -/
theorem core_showPad : dongle.showPad.core = dongle.core := by
  unfold showPad
  split
  · rfl
  · rfl

/-- An entered code does nothing to the host. -/
theorem enter_orderly [KeyValueStore κ] (pin : Pin) :
    dongle.core.StaysOrderly rest (dongle.enter pin).core := by
  unfold enter askCode
  split
  · split
    · exact ⟨rfl, id⟩
    · rw [core_showPad]
      exact ⟨rfl, id⟩
  · rw [core_showPad]
    exact ⟨rfl, id⟩
  · exact ⟨rfl, id⟩
  · rw [core_showPad]
    exact ⟨rfl, id⟩

variable [Device δ] (restful : Device.Restful rest)

include restful

/-- Gestures leave the host at rest, carried out or not. -/
theorem perform_orderly {actions : List Action} (gestures : Action.Gestures actions) :
    dongle.core.StaysOrderly rest (dongle.perform actions).2.core := by
  have stays (resting : rest dongle.core.device) := restful.stays gestures resting
  unfold perform
  cases outcome : performAll actions dongle.core.device with
  | mk result device =>
    rw [outcome] at stays
    cases result with
    | ok _ => exact ⟨rfl, fun resting => stays resting rfl⟩
    | error e => exact ⟨rfl, fun _ => restful.returns device⟩

/-- Typing a secret leaves the host at rest. -/
theorem send_orderly (place : Nat) : dongle.core.StaysOrderly rest (dongle.send place).core := by
  unfold send
  cases dongle.core.credentials.list[place]? with
  | none => exact ⟨rfl, id⟩
  | some credential =>
    have typed := dongle.perform_orderly restful
      ((Action.Gestures.typeText dongle.core.macros.defaultSpeed credential.secret).append
        (.of_tap ⟨0, Usage.enter⟩))
    dsimp only
    split
    · next sent =>
      rw [sent] at typed
      exact typed
    · next failed =>
      rw [failed] at typed
      exact typed

variable [FileStore φ]

/-- Typing a file leaves the host at rest. -/
theorem typeFile_orderly (pin : Pin) :
    dongle.core.StaysOrderly rest (dongle.typeFile pin).core := by
  unfold typeFile
  split
  · exact ⟨rfl, id⟩
  · next files _ =>
    dsimp only
    have typed (resting : rest dongle.core.device) :=
      dongle.core.player.typeFile_rests restful resting files (pin.text ++ FileName.ending)
    split
    · next ended =>
      rw [ended] at typed
      exact ⟨rfl, fun resting => (typed resting).resolve_right nofun⟩
    · next ended =>
      rw [ended] at typed
      exact ⟨rfl, fun resting => (typed resting).resolve_right nofun⟩
    · exact ⟨rfl, fun _ => restful.returns _⟩

variable [KeyValueStore κ]

/-- A press leaves the settings as they are and the host at rest. -/
theorem press_orderly (button : ButtonPress) :
    dongle.core.StaysOrderly rest (dongle.press button).core := by
  rw [press_eq]
  cases dongle.mode.task button with
  | pad mode =>
    rw [fulfil, core_showPad]
    exact ⟨rfl, id⟩
  | enter pad pin => exact enter_orderly { dongle with mode := .code pad } pin
  | typeFile pad pin =>
    rw [fulfil, core_showPad]
    exact typeFile_orderly { dongle with mode := .file pad } restful pin
  | browse selected => exact ⟨rfl, id⟩
  | send selected => exact dongle.send_orderly restful selected
  | nothing => exact ⟨rfl, id⟩

/-- A line leaves the settings as they are and the host at rest. -/
theorem serveLine_orderly (kind : LinkKind) (line : Line) :
    dongle.core.StaysOrderly rest (dongle.serveLine kind line).core := by
  unfold serveLine
  cases dongle.port? kind with
  | none => exact ⟨rfl, id⟩
  | some port =>
    dsimp only
    rw [(Port.serveLine_eq port dongle.core line).2.2.1]
    obtain ⟨settings, rests, _⟩ := port.session.serve_orderly restful
      (fun _ _ kept => kept : ∀ (t : Text) (link : LineLink), True → True) line dongle.core
      port.link
    exact ⟨settings, rests⟩

end Dongle

end Keyfob
