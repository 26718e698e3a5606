import Keyfob.Hid.Gadget
import Keyfob.Hid.Recording

/-!
# Devices that can be depended on

A device can be depended on (`Device.Dependable`) as long as it is in some states: it carries out
every action, stays in those states, and goes on being able to do the same things. A recording
always can, and so can a gadget whose host is there (`Gadget.dependable`).
-/
namespace Keyfob

/-- In the states that are fit, every action is carried out and leads to a fit state in which
the device can do the same things. -/
structure Device.Dependable {δ : Type} [Device δ] (fit : δ → Prop) : Prop where
  /-- An action is carried out. -/
  performs : ∀ (action : Action) (device : δ), fit device →
    (Device.perform action device).1 = .ok () ∧ fit (Device.perform action device).2 ∧
      capabilities (Device.perform action device).2 = capabilities device

section Actions

variable {δ : Type} [Device δ] {fit : δ → Prop}

/-- Actions are carried out in turn. -/
theorem carriedOut_append (first second : List Action) (device : δ) :
    carriedOut (first ++ second) device = carriedOut second (carriedOut first device) :=
  List.foldl_append

/-- A device that can be depended on carries out actions and stays fit. -/
theorem performAll_of_dependable (dependable : Device.Dependable fit) (actions : List Action)
    {device : δ} (fits : fit device) :
    performAll actions device = (.ok (), carriedOut actions device) ∧
      fit (carriedOut actions device) ∧
      capabilities (carriedOut actions device) = capabilities device := by
  induction actions generalizing device with
  | nil => exact ⟨rfl, fits, rfl⟩
  | cons action actions ih =>
    obtain ⟨performed, still, able⟩ := dependable.performs action device fits
    cases outcome : Device.perform action device with
    | mk result after =>
      rw [outcome] at performed still able
      cases performed
      have reached : carriedOut (action :: actions) device = carriedOut actions after := by
        rw [carriedOut, List.foldl_cons, outcome]
        rfl
      obtain ⟨later, fitting, unchanged⟩ := ih still
      rw [reached, performAll, outcome]
      exact ⟨later, fitting, unchanged.trans able⟩

/-- On a device that can be depended on, an interpreter works through all of its inputs. -/
theorem drive_of_dependable (dependable : Device.Dependable fit) {σ ι : Type}
    (next : Interpreter σ ι) (state : σ) (inputs : List ι) {device : δ} (fits : fit device) :
    drive next state inputs device =
      (.ok (), (next.run state inputs).1, carriedOut (next.run state inputs).2 device) := by
  induction inputs generalizing state device with
  | nil => rfl
  | cons input inputs ih =>
    obtain ⟨performed, still, _⟩ :=
      performAll_of_dependable dependable (next state input).2.all fits
    have later := ih (next state input).1 still
    rw [drive]
    simp only [perform_eq_performAll, performed, later]
    rw [Interpreter.run, carriedOut_append]

end Actions

/-- A recording can be depended on. -/
theorem Recording.dependable : Device.Dependable fun _ : Recording => True where
  performs _ _ _ := ⟨rfl, trivial, rfl⟩

namespace Endpoint

/-- The host is there to stay. -/
def Connected (endpoint : Endpoint) : Prop := endpoint.allowance = none ∧ endpoint.lapses = []

/-- Reports are written while the host is there. -/
theorem write_of_connected {endpoint : Endpoint} (connected : endpoint.Connected)
    (report : List UInt8) :
    (endpoint.write report).1 = .ok () ∧ (endpoint.write report).2.Connected := by
  obtain ⟨allowed, steady⟩ := connected
  unfold write Lapses.fails
  rw [allowed, steady]
  exact ⟨rfl, rfl, rfl⟩

end Endpoint

namespace Gadget

/-- The host is there to stay for every endpoint that there is. -/
structure Connected (gadget : Gadget) : Prop where
  /-- For the keyboard. -/
  keyboard : gadget.keyboard.Connected
  /-- For the mouse. -/
  mouse : ∀ endpoint, gadget.mouse = some endpoint → endpoint.Connected
  /-- For media keys. -/
  consumer : ∀ endpoint, gadget.consumer = some endpoint → endpoint.Connected
  /-- For the gamepad. -/
  gamepad : ∀ endpoint, gadget.gamepad = some endpoint → endpoint.Connected

/-- Something was done to a gadget that went well, left the host there, and changed nothing about
what the gadget can do. -/
def WentWell (before : Gadget) (outcome : Except HidError Unit × Gadget) : Prop :=
  outcome.1 = .ok () ∧ outcome.2.Connected ∧ outcome.2.abilities = before.abilities

/-- Reports are written to an endpoint that may be absent while the host is there. -/
theorem writeOptional_of_connected {endpoint : Option Endpoint}
    (connected : ∀ there, endpoint = some there → there.Connected) (report : List UInt8) :
    (writeOptional endpoint report).1 = .ok () ∧
      (∀ there, (writeOptional endpoint report).2 = some there → there.Connected) ∧
      (writeOptional endpoint report).2.isSome = endpoint.isSome := by
  cases endpoint with
  | none => exact ⟨rfl, nofun, rfl⟩
  | some there =>
    obtain ⟨written, still⟩ := Endpoint.write_of_connected (connected there rfl) report
    refine ⟨written, fun other same => ?_, rfl⟩
    cases same
    exact still

variable {gadget : Gadget}

/-- A keyboard report is written, whatever keys are held. -/
theorem writeKeyboard_wentWell (connected : gadget.Connected) (keys : KeyboardReport) :
    gadget.WentWell (writeKeyboard { gadget with keys := keys }) := by
  obtain ⟨written, still⟩ := Endpoint.write_of_connected connected.keyboard keys.bytes
  exact ⟨written, ⟨still, connected.mouse, connected.consumer, connected.gamepad⟩, rfl⟩

/-- A mouse report is written, whatever buttons are held. -/
theorem writeMouse_wentWell (connected : gadget.Connected) (buttons : UInt8)
    (dx dy wheel pan : Int8) :
    gadget.WentWell (writeMouse { gadget with mouseButtons := buttons } dx dy wheel pan) := by
  obtain ⟨written, still, there⟩ := writeOptional_of_connected connected.mouse
    (mouseBytes buttons dx dy wheel pan)
  refine ⟨written, ⟨connected.keyboard, still, connected.consumer, connected.gamepad⟩, ?_⟩
  unfold abilities writeMouse
  simp only [there]

/-- A gamepad report is written, whatever its state is. -/
theorem writePad_wentWell (connected : gadget.Connected) (pad : GamepadReport) :
    gadget.WentWell (writePad { gadget with pad := pad }) := by
  obtain ⟨written, still, there⟩ := writeOptional_of_connected connected.gamepad pad.bytes
  refine ⟨written, ⟨connected.keyboard, connected.mouse, connected.consumer, still⟩, ?_⟩
  unfold abilities writePad
  simp only [there]

/-- A media key is reported. -/
theorem setMedia_wentWell (connected : gadget.Connected) (key : MediaKey) (down : Bool) :
    gadget.WentWell (gadget.setMedia key down) := by
  obtain ⟨written, still, there⟩ := writeOptional_of_connected connected.consumer
    (consumerBytes (if down then key.usage else 0))
  refine ⟨written, ⟨connected.keyboard, connected.mouse, still, connected.gamepad⟩, ?_⟩
  unfold abilities setMedia
  simp only [there]

/-- Two things that go well in turn go well together. -/
theorem WentWell.trans {outcome : Except HidError Unit × Gadget}
    {next : Gadget → Except HidError Unit × Gadget} :
    gadget.WentWell outcome → (∀ after : Gadget, after.Connected → after.WentWell (next after)) →
      gadget.WentWell
        (match outcome with
        | (.error e, after) => (.error e, after)
        | (.ok (), after) => next after) := by
  intro first second
  obtain ⟨result, after⟩ := outcome
  obtain ⟨well, still, able⟩ := first
  cases well
  obtain ⟨better, staying, same⟩ := second after still
  exact ⟨better, staying, same.trans able⟩

/-- Where nothing is written, nothing can fail. -/
theorem nothing_wentWell (connected : gadget.Connected) : gadget.WentWell (.ok (), gadget) :=
  ⟨rfl, connected, rfl⟩

/-- Every action goes well while the host is there. -/
theorem act_wentWell (connected : gadget.Connected) (action : Action) :
    gadget.WentWell (gadget.act action) := by
  cases action with
  | press code =>
    unfold act press
    dsimp only
    split
    · exact nothing_wentWell connected
    · exact writeKeyboard_wentWell connected _
  | release code => exact writeKeyboard_wentWell connected _
  | releaseAll =>
    refine (writeKeyboard_wentWell connected .empty).trans fun after still => ?_
    split
    · exact nothing_wentWell still
    · exact writeMouse_wentWell still 0 0 0 0 0
  | type c =>
    unfold act typeChar
    dsimp only
    split
    · exact nothing_wentWell connected
    · exact (writeKeyboard_wentWell connected _).trans fun after still =>
        writeKeyboard_wentWell still gadget.keys
  | move step => exact writeMouse_wentWell connected gadget.mouseButtons step.dx step.dy 0 0
  | mouseButton button down => exact writeMouse_wentWell connected _ 0 0 0 0
  | scroll vertical horizontal =>
    exact writeMouse_wentWell connected gadget.mouseButtons 0 0 vertical horizontal
  | padButton button down => exact writePad_wentWell connected _
  | padAxis axis value => exact writePad_wentWell connected _
  | padHat hat => exact writePad_wentWell connected _
  | media key down => exact setMedia_wentWell connected key down
  | delay ms => exact nothing_wentWell connected

/-- A gadget whose host is there can be depended on. -/
theorem dependable : Device.Dependable Connected where
  performs action _ connected := act_wentWell connected action

end Gadget

end Keyfob
