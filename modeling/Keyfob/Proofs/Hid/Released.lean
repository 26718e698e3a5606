import Keyfob.Hid.Gadget
import Keyfob.Proofs.Hid.Gestures

/-!
# What is let go

A tapped chord lets go of every key that it presses, also where its key is one of its modifiers or
none at all (`Action.held_tap`). So gestures that a gadget carries out leave no key held, and
letting go of everything leaves none held even where it is refused: a gadget without held keys is
at rest (`Gadget.restful`). Mouse buttons are let go only once the report of the keyboard was
accepted (`Gadget.mouseButtons_releaseAll`).
-/
namespace Keyfob

namespace Usage

/-- The bits of some modifier keys. -/
def bits (codes : List Usage) : UInt8 := codes.foldr (fun code mask => modifierBit code ||| mask) 0

/-- What is in neither of two masks. -/
theorem not_or (first second : UInt8) : ~~~(first ||| second) = ~~~first &&& ~~~second :=
  UInt8.toBitVec_inj.mp BitVec.not_or

/-- Nothing is left of two masks once both are taken away. -/
theorem or_and_not (first second : UInt8) :
    ((first ||| second) &&& ~~~second) &&& ~~~first = 0 := by
  apply UInt8.toBitVec_inj.mp
  ext place _
  simp only [UInt8.toBitVec_and, UInt8.toBitVec_or, UInt8.toBitVec_not, BitVec.getElem_and,
    BitVec.getElem_or, BitVec.getElem_not]
  cases first.toBitVec[place] <;> cases second.toBitVec[place] <;> simp

end Usage

namespace Action

/-- The keys that are held after an action that is carried out. -/
def held (keys : KeyboardReport) : Action → KeyboardReport
  | press code => (keys.press code).2
  | release code => keys.release code
  | releaseAll => .empty
  | _ => keys

/-- A key that is pressed is held as the report takes it. -/
theorem held_press (keys : KeyboardReport) (code : Usage) :
    held keys (press code) = (keys.press code).2 := rfl

/-- A key that is let go is taken out of the report. -/
theorem held_release (keys : KeyboardReport) (code : Usage) :
    held keys (release code) = keys.release code := rfl

/-- A pause changes nothing that is held. -/
theorem held_delay (keys : KeyboardReport) (ms : UInt32) : held keys (delay ms) = keys := rfl

section Tapping

variable {codes : List Usage} (modifiers : ∀ code ∈ codes, Usage.isModifier code = true)

include modifiers

/-- Modifier keys that are pressed are held beside the others. -/
theorem held_presses (keys : KeyboardReport) :
    (codes.map press).foldl held keys =
      { keys with modifiers := keys.modifiers ||| Usage.bits codes } := by
  induction codes generalizing keys with
  | nil => simp [Usage.bits]
  | cons code codes ih =>
    have first := modifiers code List.mem_cons_self
    have pressed : held keys (press code) =
        { keys with modifiers := keys.modifiers ||| Usage.modifierBit code } := by
      simp only [held_press, KeyboardReport.press, first, if_true]
    rw [List.map_cons, List.foldl_cons, pressed,
      ih fun other listed => modifiers other (List.mem_cons_of_mem _ listed)]
    simp only [Usage.bits, List.foldr_cons, UInt8.or_assoc]

/-- Modifier keys that are let go, in the opposite order, are held no longer. -/
theorem held_releases (keys : KeyboardReport) :
    (codes.reverse.map release).foldl held keys =
      { keys with modifiers := keys.modifiers &&& ~~~Usage.bits codes } := by
  induction codes with
  | nil => simp [Usage.bits]
  | cons code codes ih =>
    have first := modifiers code List.mem_cons_self
    rw [List.reverse_cons, List.map_append, List.foldl_append,
      ih fun other listed => modifiers other (List.mem_cons_of_mem _ listed)]
    simp only [List.map_cons, List.map_nil, List.foldl_cons, List.foldl_nil, held_release,
      KeyboardReport.release, first, if_true, Usage.bits, List.foldr_cons, Usage.not_or,
      UInt8.and_assoc]
    rw [UInt8.and_comm (~~~_) (~~~Usage.modifierBit code)]

end Tapping

end Action

/-- A key that is no modifier is let go from the slot that it was pressed into. -/
theorem KeyboardReport.release_press {code : Usage} (other : Usage.isModifier code = false)
    (modifiers : UInt8) :
    let free : KeyboardReport := { modifiers := modifiers }
    (free.press code).2.release code = free := by
  intro free
  have filled : fill? code free.slots.toList = some [code, 0, 0, 0, 0, 0] := rfl
  simp only [press, other, Bool.false_eq_true, if_false]
  split
  · -- A zero stands for a free slot, so it passes for a key that is held already.
    simp only [release, other, Bool.false_eq_true, if_false, free, Vector.map_replicate, ite_self]
  · split
    · next found =>
      cases filled.symm.trans found
      simp only [release, other, Bool.false_eq_true, if_false, free]
      simp
      rfl
    · next full => cases filled.symm.trans full

/-- From no key held, a tapped chord leads to no key held, whatever its key is. -/
theorem Action.held_tap (chord : Chord) : (Action.tap chord).foldl held .empty = .empty := by
  let codes := Usage.modifierUsages chord.modifiers
  have modifiers : ∀ code ∈ codes, Usage.isModifier code = true := by
    intro code listed
    have every : ∀ code ∈ ([0xe0, 0xe1, 0xe2, 0xe3, 0xe4, 0xe5, 0xe6, 0xe7] : List Usage),
        Usage.isModifier code = true := by decide +kernel
    exact every code (List.mem_filter.mp listed).1
  have alone : (0 : UInt8) ||| Usage.bits codes = Usage.bits codes := UInt8.zero_or
  rw [Action.tap, List.foldl_append, List.foldl_append, held_presses modifiers,
    held_releases modifiers]
  simp only [List.foldl_cons, List.foldl_nil, held_press, held_delay, held_release,
    KeyboardReport.empty, alone]
  cases key : Usage.isModifier chord.key with
  | true =>
    -- The key may be a modifier of the chord itself, and is then let go with it.
    simp only [KeyboardReport.press, KeyboardReport.release, key, if_true, Usage.or_and_not]
  | false =>
    rw [KeyboardReport.release_press key (Usage.bits codes)]
    simp only [UInt8.and_not_self]

/-- Gestures lead from no key held to no key held. -/
theorem Action.held_gestures {actions : List Action} (gestures : Action.Gestures actions) :
    actions.foldl held .empty = .empty := by
  induction gestures with
  | nil => rfl
  | tap chord _ ih => rw [List.foldl_append, held_tap, ih]
  | @plain action later plain _ ih =>
    have same : held .empty action = .empty := by
      cases action with
      | press code => cases plain
      | release code => cases plain
      | _ => rfl
    rw [List.foldl_cons, same, ih]

/-- A key that finds no slot is not held. -/
theorem KeyboardReport.press_of_full {report keys : KeyboardReport} {code : Usage}
    (full : report.press code = (false, keys)) : keys = report := by
  unfold press at full
  split at full
  · cases full
  · split at full
    · cases full
    · split at full
      · cases full
      · cases full
        rfl

namespace Endpoint

/-- Whether the next write is accepted. -/
def accepts (endpoint : Endpoint) : Bool :=
  !endpoint.lapses.fails && endpoint.allowance.spend?.isSome

/-- The endpoint after its next write. -/
def after (endpoint : Endpoint) (report : List UInt8) : Endpoint :=
  { endpoint with
    latest := if endpoint.accepts then report :: endpoint.latest else endpoint.latest
    lapses := endpoint.lapses.tail
    allowance := if endpoint.accepts then endpoint.allowance.spend?.getD none
      else endpoint.allowance }

/-- A write is accepted or fails. -/
theorem write_eq (endpoint : Endpoint) (report : List UInt8) :
    endpoint.write report =
      (if endpoint.accepts then .ok () else .error lost, endpoint.after report) := by
  unfold write after accepts
  cases endpoint.lapses.fails with
  | true => rfl
  | false =>
    cases endpoint.allowance.spend? with
    | none => rfl
    | some left => rfl

end Endpoint

namespace Gadget

variable {gadget : Gadget}

/-- Pressing a key holds it, also where the report of it is refused. -/
theorem keys_press (code : Usage) :
    (gadget.press code).2.keys = (gadget.keys.press code).2 := by
  unfold press
  cases held : gadget.keys.press code with
  | mk fits keys =>
    cases fits with
    | true => rfl
    | false => exact (KeyboardReport.press_of_full held).symm

/-- Typing a character leaves the keys as they are, unless it is refused. -/
theorem keys_typeChar (c : Char) (done : (gadget.typeChar c).1 = .ok ()) :
    (gadget.typeChar c).2.keys = gadget.keys := by
  unfold typeChar at done ⊢
  cases typed : Usage.ofChar? c with
  | none => rfl
  | some key =>
    simp only [typed] at done ⊢
    generalize writeKeyboard { gadget with
      keys := ((if key.2 then (gadget.keys.press Usage.leftShift).2 else gadget.keys).press
        key.1).2 } = outcome at done ⊢
    obtain ⟨result, pressed⟩ := outcome
    cases result with
    | error e => cases done
    | ok _ => rfl

/-- Letting go of everything leaves no key held, also where it is refused. -/
theorem keys_releaseAll (gadget : Gadget) : gadget.releaseAll.2.keys = .empty := by
  unfold releaseAll
  cases outcome : writeKeyboard { gadget with keys := .empty } with
  | mk result after =>
    have keys : after.keys = .empty := (congrArg (fun written => written.2.keys) outcome).symm
    cases result with
    | error e => exact keys
    | ok _ =>
      dsimp only
      split
      · exact keys
      · exact keys

/-- What an action that is carried out does to the keys. -/
theorem keys_act (action : Action) (done : (gadget.act action).1 = .ok ()) :
    (gadget.act action).2.keys = action.held gadget.keys := by
  cases action with
  | press code => exact keys_press code
  | release code => rfl
  | releaseAll => exact keys_releaseAll gadget
  | type c => exact keys_typeChar c done
  | move step => rfl
  | mouseButton button down => rfl
  | scroll vertical horizontal => rfl
  | padButton button down => rfl
  | padAxis axis value => rfl
  | padHat hat => rfl
  | media key down => rfl
  | delay ms => rfl

/-- What actions that are carried out do to the keys. -/
theorem keys_performAll (actions : List Action) (done : (performAll actions gadget).1 = .ok ()) :
    (performAll actions gadget).2.keys = actions.foldl Action.held gadget.keys := by
  induction actions generalizing gadget with
  | nil => rfl
  | cons action actions ih =>
    have step : (Device.perform action gadget).1 = .ok () →
        (Device.perform action gadget).2.keys = action.held gadget.keys := keys_act action
    rw [performAll] at done ⊢
    cases outcome : Device.perform action gadget with
    | mk result after =>
      rw [outcome] at step
      simp only [outcome] at done ⊢
      cases result with
      | ok _ => rw [ih done, step rfl, List.foldl_cons]
      | error e => cases done

/-- Letting go of everything leaves no mouse button held just where none was held or the report of
the keyboard, which comes first, is accepted. -/
theorem mouseButtons_releaseAll (gadget : Gadget) :
    gadget.releaseAll.2.mouseButtons = 0 ↔
      gadget.mouseButtons = 0 ∨ gadget.keyboard.accepts = true := by
  unfold releaseAll writeKeyboard
  rw [Endpoint.write_eq]
  cases gadget.keyboard.accepts with
  | false => simp
  | true =>
    by_cases none' : gadget.mouseButtons = 0
    · simp [none']
    · simp only [if_true, none', if_false]
      simp [writeMouse]

/-- What a mouse reports first once it is moved. -/
def motionReport? (gadget : Gadget) (step : MotionStep) : Option (List UInt8) :=
  (gadget.act (.move step)).2.mouse.bind fun endpoint => endpoint.latest.head?

/-- A mouse whose reports are accepted reports its motion with the buttons that are held. -/
theorem motionReport?_of_accepts (gadget : Gadget) {endpoint : Endpoint}
    (accepts : endpoint.accepts = true) (step : MotionStep) :
    motionReport? { gadget with mouse := some endpoint } step =
      some (mouseBytes gadget.mouseButtons step.dx step.dy 0 0) := by
  simp only [motionReport?, act, writeMouse, writeOptional, Endpoint.write_eq, Endpoint.after,
    accepts, if_true, Option.bind_some, List.head?_cons]

/-- A gadget is at rest while no key is held. -/
theorem restful : Device.Restful fun gadget : Gadget => gadget.keys = .empty where
  stays gestures released done := by
    rw [keys_performAll _ done, released, Action.held_gestures gestures]
  returns := keys_releaseAll

end Gadget

end Keyfob
