import Keyfob.Hid.Action

/-!
# Devices

A device carries out actions. It may refuse one, as when the host is gone, and it is left in
some state either way. `performAll` carries out a list of actions up to the first that is
refused, and `Burst.perform` does so with a burst. `drive` lets an interpreter, a function from
its state and an input to its next state and a burst of actions, work through a list of inputs.
What an interpreter does is then said without the device (`Interpreter.run`), and
`drive_eq_of_accepts` says that a device which refuses nothing carries out exactly that.
-/
namespace Keyfob

/-- What a device can do beyond typing on the keyboard. -/
structure Capabilities where
  /-- Whether there is a mouse. -/
  mouse : Bool
  /-- Whether there is a gamepad. -/
  gamepad : Bool
  /-- The media keys there are. -/
  media : List MediaKey
deriving DecidableEq

namespace Capabilities

/-- A keyboard and nothing else. -/
def keyboardOnly : Capabilities := ⟨false, false, []⟩

/-- Everything. -/
def everything : Capabilities := ⟨true, true, MediaKey.all⟩

/-- Whether there is a given media key. -/
def supports (capabilities : Capabilities) (key : MediaKey) : Bool :=
  capabilities.media.contains key

/-- The same with further media keys. -/
def withMedia (capabilities : Capabilities) (keys : List MediaKey) : Capabilities :=
  { capabilities with media := MediaKey.all.filter fun key =>
      capabilities.supports key || keys.contains key }

/-- The same without a media key. -/
def withoutMedia (capabilities : Capabilities) (key : MediaKey) : Capabilities :=
  { capabilities with media := capabilities.media.filter fun held => held ≠ key }

end Capabilities

/-- Why a device refused an action. -/
inductive HidError where
  /-- A report could not be written, for the given cause. -/
  | write (cause : Text)
deriving DecidableEq

/-- The text that reports an error of a device. -/
def HidError.message : HidError → Text
  | .write cause => "Failed to write HID report: " ++ cause

/-- Something that carries out actions. -/
class Device (δ : Type) where
  /-- What the device can do. -/
  capabilities : δ → Capabilities
  /-- Carry out one action, or refuse it. -/
  perform : Action → δ → Except HidError Unit × δ

export Device (capabilities)

/-- Carry out actions in order, up to the first that is refused. -/
def performAll {δ : Type} [Device δ] : List Action → δ → Except HidError Unit × δ
  | [], device => (.ok (), device)
  | action :: actions, device =>
    match Device.perform action device with
    | (.ok (), device) => performAll actions device
    | (.error e, device) => (.error e, device)

/-- Carry out actions a number of times over, up to the first that is refused. -/
def performTimes {δ : Type} [Device δ] : Nat → List Action → δ → Except HidError Unit × δ
  | 0, _, device => (.ok (), device)
  | count + 1, actions, device =>
    match performAll actions device with
    | (.ok (), device) => performTimes count actions device
    | (.error e, device) => (.error e, device)

/-- Carry out a burst, up to the first action that is refused. -/
def Burst.perform {δ : Type} [Device δ] (burst : Burst) (device : δ) :
    Except HidError Unit × δ := performTimes burst.times burst.actions device

/-- An interpreter: what it does on each input from each state. -/
abbrev Interpreter (σ ι : Type) := σ → ι → σ × Burst

/-- The state after some inputs and the actions that they call for. -/
def Interpreter.run {σ ι : Type} (next : Interpreter σ ι) : σ → List ι → σ × List Action
  | state, [] => (state, [])
  | state, input :: inputs =>
    let (state, burst) := next state input
    let (final, later) := run next state inputs
    (final, burst.all ++ later)

/-- Let an interpreter work through inputs on a device, up to the first action refused. The
interpreter's state is then the one that it had when it called for that action. -/
def drive {σ ι δ : Type} [Device δ] (next : Interpreter σ ι) :
    σ → List ι → δ → Except HidError Unit × σ × δ
  | state, [], device => (.ok (), state, device)
  | state, input :: inputs, device =>
    let (state, burst) := next state input
    match burst.perform device with
    | (.ok (), device) => drive next state inputs device
    | (.error e, device) => (.error e, state, device)

/-- The state of a device after actions that it carries out whatever they are. -/
def carriedOut {δ : Type} [Device δ] (actions : List Action) (device : δ) : δ :=
  actions.foldl (fun device action => (Device.perform action device).2) device

/-- A device that refuses nothing. -/
class Accepts (δ : Type) [Device δ] : Prop where
  /-- Every action is carried out. -/
  accepts : ∀ (action : Action) (device : δ), (Device.perform action device).1 = .ok ()

/-- A device that refuses nothing carries out every list of actions. -/
theorem performAll_eq_of_accepts {δ : Type} [Device δ] [Accepts δ] (actions : List Action)
    (device : δ) : performAll actions device = (.ok (), carriedOut actions device) := by
  induction actions generalizing device with
  | nil => rfl
  | cons action actions ih =>
    have accepted := Accepts.accepts action device
    cases outcome : Device.perform action device with
    | mk result after =>
      rw [outcome] at accepted
      subst accepted
      simp [performAll, outcome, carriedOut, ih, List.foldl]

/-- Performing two lists in turn is performing them as one. -/
theorem performAll_append {δ : Type} [Device δ] (first second : List Action) (device : δ) :
    performAll (first ++ second) device =
      match performAll first device with
      | (.ok (), device) => performAll second device
      | (.error e, device) => (.error e, device) := by
  induction first generalizing device with
  | nil => rfl
  | cons action actions ih =>
    simp only [List.cons_append, performAll]
    split
    · exact ih _
    · rfl

/-- Carrying out a burst is carrying out all of its actions in order. -/
theorem perform_eq_performAll {δ : Type} [Device δ] (burst : Burst) (device : δ) :
    burst.perform device = performAll burst.all device := by
  obtain ⟨times, actions⟩ := burst
  induction times generalizing device with
  | zero => rfl
  | succ times ih =>
    simp only [Burst.perform, Burst.all] at ih ⊢
    rw [performTimes, List.replicate_succ, List.flatten_cons, performAll_append]
    split <;> simp_all

/-- On a device that refuses nothing, an interpreter works through all of its inputs. -/
theorem drive_eq_of_accepts {σ ι δ : Type} [Device δ] [Accepts δ] (next : Interpreter σ ι)
    (state : σ) (inputs : List ι) (device : δ) :
    drive next state inputs device =
      (.ok (), (next.run state inputs).1, carriedOut (next.run state inputs).2 device) := by
  induction inputs generalizing state device with
  | nil => rfl
  | cons input inputs ih =>
    simp [drive, Interpreter.run, perform_eq_performAll, performAll_eq_of_accepts, ih, carriedOut]

end Keyfob
