import Keyfob.Proofs.Dongle.Menu
import Keyfob.Proofs.Dongle.Orderly
import Keyfob.Proofs.Hid.Released

/-!
# What a device lets go of

A device on a gadget leaves no key held after any line or press, whatever is typed, played or
relayed, and whatever fails in its middle (`Dongle.no_key_left_held`): what is carried out to its
end consists of gestures, and what is not is followed by letting go of everything. Mouse buttons
are not let go so surely (`Dongle.buttons_of_refused`): they stay held where the keyboard refuses
its report at that moment.
-/
namespace Keyfob

variable {κ φ : Type}

namespace Dongle

/-! ## Keys -/

/-- Something that happens and, where it happens outside, leaves no key of the gadget held. -/
def HoldsNoKey : DongleEvent Gadget κ φ → Prop
  | .outside device _ _ _ _ _ _ => device.keys = .empty
  | _ => True

variable [KeyValueStore κ] [FileStore φ]

/-- Whatever happens leaves no key held where none was held. -/
theorem keys_step {dongle : Dongle Gadget κ φ} (released : dongle.core.device.keys = .empty)
    {event : DongleEvent Gadget κ φ} (fine : HoldsNoKey event) :
    (dongle.step event).core.device.keys = .empty := by
  cases event with
  | line kind line => exact (dongle.serveLine_orderly Gadget.restful kind line).rests released
  | press button => exact (dongle.press_orderly Gadget.restful button).rests released
  | outside device store files now serial wireless presses => exact fine

/-- Along every run, no key is held. -/
theorem keys_run {dongle : Dongle Gadget κ φ} (released : dongle.core.device.keys = .empty)
    {events : List (DongleEvent Gadget κ φ)} (fine : ∀ event ∈ events, HoldsNoKey event) :
    (dongle.run events).core.device.keys = .empty := by
  induction events generalizing dongle with
  | nil => exact released
  | cons event events ih =>
    have next := keys_step released (fine event List.mem_cons_self)
    exact ih next fun other listed => fine other (List.mem_cons_of_mem _ listed)

/-- A pass leaves no key held where none was held. -/
theorem keys_poll {dongle : Dongle Gadget κ φ} (released : dongle.core.device.keys = .empty) :
    dongle.poll.2.core.device.keys = .empty := by
  rw [← run_pass]
  refine keys_run released fun event listed => ?_
  cases listed with
  | head => exact released
  | tail _ among =>
    cases mem_agenda among with
    | inl line =>
      obtain ⟨kind, line, rfl⟩ := line
      trivial
    | inr press =>
      obtain ⟨button, rfl⟩ := press
      trivial

/-- On every run of a device on a gadget, whatever lines and presses are handled in any order,
whatever they type, play or relay, and whatever writes and replies fail: no key and no modifier is
held after any of them, nor after a pass of the main loop. -/
theorem no_key_left_held {first : Dongle Gadget κ φ}
    (released : first.core.device.keys = .empty) (events : List (DongleEvent Gadget κ φ))
    (fine : ∀ event ∈ events, HoldsNoKey event) :
    ∀ before after, events = before ++ after →
      (first.run before).core.device.keys = .empty ∧
        (first.run before).poll.2.core.device.keys = .empty := by
  intro before after whole
  have reached : (first.run before).core.device.keys = .empty := by
    refine keys_run released fun event listed => fine event ?_
    rw [whole]
    exact List.mem_append_left _ listed
  exact ⟨reached, keys_poll reached⟩

/-- A device as it comes on a gadget, with a wireless link. -/
def onGadget (gadget : Gadget) : Dongle Gadget MemoryStore MemoryFiles :=
  withWireless { core := Core.ofSettings {} {} gadget {} (some {}) } { kind := .ble }

/-- Where the second report of a chord is refused, its modifier is held then, and is let go. -/
theorem no_key_left_held_chord :
    let first := onGadget { keyboard := { lapses := [false, true] } }
    let chord : DongleEvent Gadget MemoryStore MemoryFiles := .line .ble { text := "KEY:ctrl+c" }
    (first.run [chord]).core.device.keys = .empty ∧
      (first.run [chord]).wireless.map Port.failures = some [.hid Endpoint.lost] := by
  intro first chord
  have fine : ∀ event ∈ [chord], HoldsNoKey event := by
    intro event listed
    cases List.mem_singleton.mp listed
    trivial
  have released : first.core.device.keys = .empty := rfl
  exact ⟨(no_key_left_held released [chord] fine [chord] [] rfl).1, by decide +kernel⟩

/-! ## Mouse buttons -/

/-- A line or a press fails because an action is refused, by a gadget that is left as it is. -/
inductive Refused (dongle : Dongle Gadget κ φ) : DongleEvent Gadget κ φ → Gadget → Prop where
  /-- A line fails. -/
  | line {kind : LinkKind} {line : Line} {port : Port} {e : HidError}
    {after : Exchange Gadget κ φ LineLink} (there : dongle.port? kind = some port)
    (failed : port.session.handled line dongle.core port.link =
      (.error (.error (.hid e)), after)) :
    Refused dongle (.line kind line) after.core.device
  /-- A secret of the menu is not typed to its end. -/
  | secret {selected : Nat} {credential : Credential} {e : HidError} {held : Gadget}
    (inMenu : dongle.mode = .menu selected)
    (there : dongle.core.credentials.list[selected]? = some credential)
    (failed : performAll (dongle.secretActions credential) dongle.core.device = (.error e, held)) :
    Refused dongle (.press .long) held
  /-- A file is not typed to its end. -/
  | file {pad next : PinPad} {pin : Pin} {files : φ} {e : HidError} {held : Gadget}
    (naming : dongle.mode = .file pad) (entered : pad.accept = (some pin, next))
    (there : dongle.core.files = some files)
    (failed : dongle.core.player.typeFile files (pin.text ++ FileName.ending) dongle.core.device =
      (.error (.hid e), held)) : Refused dongle (.press .long) held

/-- Whatever fails because an action is refused, everything is let go then. -/
theorem device_of_refused {dongle : Dongle Gadget κ φ} {event : DongleEvent Gadget κ φ}
    {held : Gadget} (refused : dongle.Refused event held) :
    (dongle.step event).core.device = held.releaseAll.2 := by
  cases refused with
  | @line kind line port e after there failed =>
    change (dongle.serveLine kind line).core.device = _
    unfold serveLine
    rw [there]
    dsimp only
    rw [(Port.serveLine_eq port dongle.core line).2.2.1, Session.serve, failed]
    rfl
  | @secret selected credential e held inMenu there failed =>
    change (dongle.press .long).core.device = _
    rw [device_press_long inMenu, there]
    dsimp only
    unfold perform
    rw [failed]
    rfl
  | @file pad next pin files e held naming entered there failed =>
    change (dongle.press .long).core.device = _
    unfold Dongle.press
    rw [naming]
    dsimp only
    rw [entered]
    dsimp only
    rw [core_showPad]
    unfold typeFile
    dsimp only
    rw [there]
    dsimp only
    rw [failed]
    rfl

/-- Letting go of everything leaves no key held, whatever is refused, and no mouse button just
where none was held or the keyboard accepts its report at that moment. So it is after every line,
secret and file that failed because an action was refused, and once the mouse is moved and its
reports are accepted again, the first of them shows no button just there. -/
theorem buttons_of_refused :
    (∀ gadget : Gadget, gadget.releaseAll.2.keys = .empty ∧
      (gadget.releaseAll.2.mouseButtons = 0 ↔
        gadget.mouseButtons = 0 ∨ gadget.keyboard.accepts = true)) ∧
    ∀ (dongle : Dongle Gadget κ φ) (event : DongleEvent Gadget κ φ) (held : Gadget),
      dongle.Refused event held →
        (dongle.step event).core.device = held.releaseAll.2 ∧
        ∀ (endpoint : Endpoint) (step : MotionStep), endpoint.accepts = true →
          ∃ buttons : UInt8,
            Gadget.motionReport? { (dongle.step event).core.device with mouse := some endpoint }
              step = some (mouseBytes buttons step.dx step.dy 0 0) ∧
            (buttons = 0 ↔ held.mouseButtons = 0 ∨ held.keyboard.accepts = true) := by
  refine ⟨fun gadget => ⟨gadget.keys_releaseAll, gadget.mouseButtons_releaseAll⟩, ?_⟩
  intro dongle event held refused
  have reached := device_of_refused refused
  refine ⟨reached, fun endpoint step accepts => ?_⟩
  refine ⟨held.releaseAll.2.mouseButtons, ?_, held.mouseButtons_releaseAll⟩
  rw [reached]
  exact Gadget.motionReport?_of_accepts _ accepts step

/-- A typed character that is refused once: the report that lets go of everything is accepted, and
the first motion shows no button. -/
theorem buttons_of_refused_once :
    let first := onGadget
      { keyboard := { lapses := [true] }, mouse := some {}, mouseButtons := MouseButton.left.mask }
    let typing : DongleEvent Gadget MemoryStore MemoryFiles := .line .ble { text := "TYPE:x" }
    ∃ held, first.Refused typing held ∧ held.mouseButtons = MouseButton.left.mask ∧
      Gadget.motionReport? { (first.step typing).core.device with mouse := some {} } ⟨5, 0⟩ =
        some [0, 5, 0, 0, 0] := by
  intro first typing
  obtain ⟨port, there⟩ : ∃ port, first.port? .ble = some port := ⟨_, rfl⟩
  let outcome := port.session.handled { text := "TYPE:x" } first.core port.link
  have failed : outcome = (.error (.error (.hid Endpoint.lost)), outcome.2) := by
    cases there
    rfl
  have refused : first.Refused typing outcome.2.core.device := .line there failed
  have pressed : outcome.2.core.device.mouseButtons = MouseButton.left.mask := by
    cases there
    rfl
  obtain ⟨_, seen⟩ := buttons_of_refused.2 first typing outcome.2.core.device refused
  obtain ⟨buttons, shown, clear⟩ := seen {} ⟨5, 0⟩ rfl
  have accepted : outcome.2.core.device.keyboard.accepts = true := by
    cases there
    rfl
  rw [clear.mpr (.inr accepted)] at shown
  exact ⟨_, refused, pressed, shown⟩

/-- A typed character that is refused because the host is gone: the button that was held before
stays held, and the first motion after the host is back shows it. -/
theorem button_held_unplugged :
    let first := onGadget (Gadget.having true false false)
    let pressed := first.run [.line .ble { text := "MOUSE:DOWN:LEFT" }]
    let unplugged : Dongle Gadget MemoryStore MemoryFiles := { pressed with
      core := { pressed.core with device := pressed.core.device.allowing (some 0) } }
    let failed := unplugged.run [.line .ble { text := "TYPE:x" }]
    failed.wireless.map Port.failures = some [.hid Endpoint.lost] ∧
      failed.core.device.mouseButtons ≠ 0 ∧
      Gadget.motionReport? (failed.core.device.allowing none) ⟨5, 0⟩ = some [1, 5, 0, 0, 0] := by
  decide +kernel

end Dongle

end Keyfob
