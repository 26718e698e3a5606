import Keyfob.Hid.Device

/-!
# Gestures

Whatever an interpreter does to the keyboard is a gesture: a chord that is tapped, or something
that presses no key for longer than itself (`Action.Gestures`). A device is restful when gestures
that are carried out lead from rest to rest, and letting go of everything leads to rest from
anywhere, whether it is refused or not (`Device.Restful`). An interpreter that makes gestures then
leaves a restful device at rest unless one of its actions was refused (`drive_rests`).
-/
namespace Keyfob

namespace Action

/-- Whether an action is something else than pressing a key or letting keys go. -/
def isPlain : Action → Bool
  | press _ => false
  | release _ => false
  | releaseAll => false
  | _ => true

/-- Actions that let go of every key that they press. -/
inductive Gestures : List Action → Prop where
  /-- Nothing. -/
  | nil : Gestures []
  /-- A chord is tapped. -/
  | tap (chord : Chord) {later : List Action} (rest : Gestures later) :
    Gestures (Action.tap chord ++ later)
  /-- Something else is done than pressing a key or letting keys go. -/
  | plain {action : Action} {later : List Action} (plain : action.isPlain = true)
    (rest : Gestures later) : Gestures (action :: later)

namespace Gestures

variable {first second actions : List Action}

/-- Gestures after gestures are gestures. -/
theorem append (earlier : Gestures first) (later : Gestures second) :
    Gestures (first ++ second) := by
  induction earlier with
  | nil => exact later
  | tap chord _ ih =>
    rw [List.append_assoc]
    exact .tap chord ih
  | plain plain _ ih => exact .plain plain ih

/-- Actions that press no key are gestures. -/
theorem of_plain (plain : ∀ action ∈ actions, action.isPlain = true) : Gestures actions := by
  induction actions with
  | nil => exact .nil
  | cons action actions ih =>
    exact .plain (plain action List.mem_cons_self)
      (ih fun other listed => plain other (List.mem_cons_of_mem _ listed))

/-- A chord that is tapped is a gesture. -/
theorem of_tap (chord : Chord) : Gestures (Action.tap chord) :=
  List.append_nil (Action.tap chord) ▸ .tap chord .nil

/-- A pause is a gesture. -/
theorem pause (ms : UInt32) : Gestures (Action.pause ms) := by
  unfold Action.pause
  split
  · exact .nil
  · exact .plain rfl .nil

/-- A media key that is tapped is a gesture. -/
theorem tapMedia (key : MediaKey) : Gestures (Action.tapMedia key) := by
  unfold Action.tapMedia
  exact .plain rfl (.plain rfl (.plain rfl .nil))

/-- Typing a character is a gesture. -/
theorem typePaced (pace : UInt32) (c : Char) : Gestures (Action.typePaced pace c) :=
  .plain rfl (pause pace)

/-- Typing a text is a gesture after another. -/
theorem typeText (pace : UInt32) (t : Text) : Gestures (Action.typeText pace t) := by
  induction t with
  | nil => exact .nil
  | cons c t ih =>
    rw [Action.typeText, List.flatMap_cons]
    exact (typePaced pace c).append ih

/-- Gestures that are made many times over are gestures. -/
theorem burst {burst : Burst} (once : Gestures burst.actions) : Gestures burst.all := by
  obtain ⟨times, actions⟩ := burst
  unfold Burst.all
  induction times with
  | zero => exact .nil
  | succ times ih =>
    rw [List.replicate_succ, List.flatten_cons]
    exact once.append (ih once)

end Gestures

end Action

/-- An interpreter whose every step makes gestures. -/
def Interpreter.Gestural {σ ι : Type} (next : Interpreter σ ι) : Prop :=
  ∀ state input, Action.Gestures (next state input).2.actions

/-- A device that gestures leave at rest, and that letting go of everything brings to rest. -/
structure Device.Restful {δ : Type} [Device δ] (rest : δ → Prop) : Prop where
  /-- Gestures that are carried out lead from rest to rest. -/
  stays : ∀ {actions : List Action} {device : δ}, Action.Gestures actions → rest device →
    (performAll actions device).1 = .ok () → rest (performAll actions device).2
  /-- Letting go of everything leads to rest, also where it is refused. -/
  returns : ∀ device : δ, rest (Device.perform .releaseAll device).2

section Driving

variable {σ ι δ : Type} [Device δ] {rest : δ → Prop}

/-- A burst of gestures that is carried out leads from rest to rest. -/
theorem Burst.perform_rests (restful : Device.Restful rest) {burst : Burst}
    (gestures : Action.Gestures burst.actions) {device : δ} (resting : rest device)
    (done : (burst.perform device).1 = .ok ()) : rest (burst.perform device).2 := by
  rw [perform_eq_performAll] at done ⊢
  exact restful.stays gestures.burst resting done

/-- An interpreter that makes gestures, and is not refused any, leads from rest to rest. -/
theorem drive_rests (restful : Device.Restful rest) {next : Interpreter σ ι}
    (gestural : next.Gestural) (state : σ) (inputs : List ι) {device : δ} (resting : rest device)
    (done : (drive next state inputs device).1 = .ok ()) :
    rest (drive next state inputs device).2.2 := by
  induction inputs generalizing state device with
  | nil => exact resting
  | cons input inputs ih =>
    have step := Burst.perform_rests restful (gestural state input) resting
    unfold drive at done ⊢
    dsimp only at done ⊢
    cases outcome : (next state input).2.perform device with
    | mk result after =>
      rw [outcome] at step
      simp only [outcome] at done ⊢
      cases result with
      | ok _ => exact ih _ (step rfl) done
      | error e => cases done

end Driving

end Keyfob
