import Keyfob.Hid.Device

/-!
# Recording devices

A recording device refuses nothing and keeps every action instead of carrying it out, for
rehearsals.
-/
namespace Keyfob

/-- A device that keeps the actions it is given. -/
structure Recording where
  /-- What the device stands in for. -/
  abilities : Capabilities := Capabilities.everything
  /-- The actions given so far, the latest first. -/
  latest : List Action := []
deriving DecidableEq

namespace Recording

/-- The actions given so far, in order. -/
def actions (recording : Recording) : List Action := recording.latest.reverse

/-- Forget the actions given so far. -/
def clear (recording : Recording) : Recording := { recording with latest := [] }

instance : Device Recording where
  capabilities recording := recording.abilities
  perform action recording := (.ok (), { recording with latest := action :: recording.latest })

instance : Accepts Recording := ⟨fun _ _ => rfl⟩

/-- A recording after some actions keeps them after those it had. -/
theorem actions_carriedOut (performed : List Action) (recording : Recording) :
    (carriedOut performed recording).actions = recording.actions ++ performed := by
  induction performed generalizing recording with
  | nil => simp [carriedOut]
  | cons action performed ih =>
    have step := ih { recording with latest := action :: recording.latest }
    simp only [carriedOut, List.foldl, Device.perform] at step ⊢
    rw [step]
    simp [actions]

end Recording

end Keyfob
