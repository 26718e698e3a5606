import Keyfob.Proofs.Hid.Keystrokes

/-!
# Keys that a refused character leaves held

To type a character, a gadget adds its key to the keys that are held, writes a report, puts the
keys back and writes another. Where the first report is refused it stops before the keys are put
back. So the keys are as before unless that report is refused and the key makes a difference to it
(`Gadget.keys_after_typing`). A key that stays held in this way is shown by every report that the
keyboard takes later, whichever others are refused, until it is let go (`Gadget.keeps_carriedOut`).
-/
namespace Keyfob

namespace KeyboardReport

/-- The report with the key of a character held too, and left Shift where the character takes it. -/
def strike (keys : KeyboardReport) (stroke : Usage × Bool) : KeyboardReport :=
  ((if stroke.2 then (keys.press Usage.leftShift).2 else keys).press stroke.1).2

/-- A report to which the key of a character makes no difference: left Shift is held where the
character takes it, and the key is held or finds no slot. -/
def Absorbs (keys : KeyboardReport) (stroke : Usage × Bool) : Prop :=
  (stroke.2 = true → keys.shifts = true) ∧
    (stroke.1 ∈ keys.slots.toList ∨ 0 ∉ keys.slots.toList)

/-! ## Slots -/

/-- A key finds a slot just where one is free. -/
theorem isSome_fill?_iff (code : Usage) (slots : List Usage) :
    (fill? code slots).isSome = true ↔ 0 ∈ slots := by
  induction slots with
  | nil => exact iff_of_false nofun nofun
  | cons slot slots ih =>
    rw [fill?]
    by_cases free : slot = 0
    · rw [if_pos free, free]
      exact iff_of_true rfl List.mem_cons_self
    · rw [if_neg free, Option.isSome_map, ih, List.mem_cons]
      exact (or_iff_right fun same => free same.symm).symm

/-- A key that finds a slot is in it, and the keys in the others stay. -/
theorem mem_of_fill? {code other : Usage} {slots filled : List Usage}
    (found : fill? code slots = some filled) (used : other ≠ 0) :
    other ∈ filled ↔ other = code ∨ other ∈ slots := by
  induction slots generalizing filled with
  | nil => cases found
  | cons slot slots ih =>
    rw [fill?] at found
    by_cases free : slot = 0
    · rw [if_pos free] at found
      cases found
      rw [List.mem_cons, List.mem_cons, free, or_iff_right used]
    · rw [if_neg free] at found
      obtain ⟨rest, inner, rfl⟩ := Option.map_eq_some_iff.mp found
      rw [List.mem_cons, ih inner, List.mem_cons, or_left_comm]

section Pressing

variable {keys : KeyboardReport} {code other : Usage}

/-- A key other than a modifier that is pressed is in a slot if it was in one or one was free, and
no other key leaves its slot. -/
theorem mem_slots_press (key : Usage.isModifier code = false) (used : other ≠ 0) :
    other ∈ (keys.press code).2.slots.toList ↔
      other ∈ keys.slots.toList ∨ other = code ∧ 0 ∈ keys.slots.toList := by
  have free := isSome_fill?_iff code keys.slots.toList
  simp only [press, key, Bool.false_eq_true, if_false, List.contains_iff_mem]
  split
  · next held =>
    refine (or_iff_left_of_imp ?_).symm
    rintro ⟨rfl, -⟩
    exact held
  · split
    · next filled found =>
      rw [found] at free
      have listed := mem_of_fill? found used
      rw [or_comm] at listed
      have there : 0 ∈ keys.slots.toList := free.mp rfl
      rw [and_iff_left there]
      exact listed
    · next full =>
      rw [full] at free
      have none' : 0 ∉ keys.slots.toList := fun there => Bool.false_ne_true (free.mpr there)
      simp only [none', and_false, or_false]

/-- A key other than a modifier leaves the modifiers as they are. -/
theorem modifiers_press (key : Usage.isModifier code = false) :
    (keys.press code).2.modifiers = keys.modifiers := by
  simp only [press, key, Bool.false_eq_true, if_false]
  split
  · rfl
  · split <;> rfl

/-- A modifier that is pressed takes no slot. -/
theorem slots_press_of_isModifier (modifier : Usage.isModifier code = true) :
    (keys.press code).2.slots = keys.slots := by
  simp only [press, modifier, if_true]

/-- No key leaves its slot when another one is pressed. -/
theorem mem_slots_press_of_mem (used : other ≠ 0) (held : other ∈ keys.slots.toList) :
    other ∈ (keys.press code).2.slots.toList := by
  cases kind : Usage.isModifier code with
  | true => rwa [slots_press_of_isModifier kind]
  | false => exact (mem_slots_press kind used).mpr (.inl held)

/-- No key leaves its slot when another one is let go. -/
theorem mem_slots_release_of_mem (apart : other ≠ code) (held : other ∈ keys.slots.toList) :
    other ∈ (keys.release code).slots.toList := by
  unfold release
  split
  · exact held
  · rw [Vector.toList_map, List.mem_map]
    exact ⟨other, held, if_neg apart⟩

/-- A key other than a modifier makes no difference to a report just where it is held or no slot is
free. -/
theorem press_eq_iff (key : Usage.isModifier code = false) (used : code ≠ 0) :
    (keys.press code).2 = keys ↔ code ∈ keys.slots.toList ∨ 0 ∉ keys.slots.toList := by
  constructor
  · intro same
    by_cases free : 0 ∈ keys.slots.toList
    · have there : code ∈ (keys.press code).2.slots.toList :=
        (mem_slots_press key used).mpr (.inr ⟨rfl, free⟩)
      rw [same] at there
      exact .inl there
    · exact .inr free
  · intro idle
    simp only [press, key, Bool.false_eq_true, if_false, List.contains_iff_mem]
    split
    · rfl
    · next absent =>
      have full := idle.resolve_left absent
      split
      · next filled found =>
        have free := isSome_fill?_iff code keys.slots.toList
        rw [found] at free
        exact absurd (free.mp rfl) full
      · rfl

end Pressing

/-! ## Striking a key -/

section Striking

variable {keys : KeyboardReport} {c : Char} {stroke : Usage × Bool}

/-- The key of a character takes a slot, and is no modifier. -/
theorem key_of_ofChar? (typed : Usage.ofChar? c = some stroke) :
    Usage.isModifier stroke.1 = false ∧ stroke.1 ≠ 0 := by
  obtain ⟨cap, listed, code, _⟩ := Usage.exists_keycap_of_ofChar? typed
  rw [code]
  exact (Usage.keycap_alone cap listed).2.2

/-- Left Shift sets its bit, which makes no difference just where it is held. -/
theorem shift_or_eq_iff (modifiers : UInt8) :
    modifiers ||| Usage.modifierBit Usage.leftShift = modifiers ↔
      (modifiers &&& Usage.shiftBit != 0) = true := by
  obtain ⟨⟨modifiers⟩⟩ := modifiers
  revert modifiers
  decide +kernel

/-- Left Shift makes no difference to a report just where it is held. -/
theorem press_leftShift_eq_iff :
    (keys.press Usage.leftShift).2 = keys ↔ keys.shifts = true := by
  obtain ⟨modifiers, slots⟩ := keys
  rw [show (press ⟨modifiers, slots⟩ Usage.leftShift).2 =
    ⟨modifiers ||| Usage.modifierBit Usage.leftShift, slots⟩ from rfl, mk.injEq,
    and_iff_left rfl, shift_or_eq_iff]
  rfl

/-- The slots of a report in which a key is struck. -/
theorem mem_slots_strike (typed : Usage.ofChar? c = some stroke) :
    stroke.1 ∈ (keys.strike stroke).slots.toList ↔
      stroke.1 ∈ keys.slots.toList ∨ 0 ∈ keys.slots.toList := by
  obtain ⟨key, used⟩ := key_of_ofChar? typed
  rw [strike, mem_slots_press key used, and_iff_right rfl]
  cases stroke.2 with
  | true => rw [if_pos rfl, slots_press_of_isModifier (by decide)]
  | false => rw [if_neg Bool.false_ne_true]

/-- No key leaves its slot when another one is struck. -/
theorem mem_slots_strike_of_mem {other : Usage} (used : other ≠ 0)
    (held : other ∈ keys.slots.toList) : other ∈ (keys.strike stroke).slots.toList := by
  refine mem_slots_press_of_mem used ?_
  split
  · exact mem_slots_press_of_mem used held
  · exact held

/-- Striking a key changes nothing just where its report absorbs it. -/
theorem strike_eq_iff (typed : Usage.ofChar? c = some stroke) :
    keys.strike stroke = keys ↔ keys.Absorbs stroke := by
  obtain ⟨key, used⟩ := key_of_ofChar? typed
  obtain ⟨code, shifted⟩ := stroke
  unfold strike Absorbs
  cases shifted with
  | false =>
    rw [if_neg Bool.false_ne_true, press_eq_iff key used]
    exact (and_iff_right nofun).symm
  | true =>
    rw [if_pos rfl, ← press_leftShift_eq_iff, ← press_eq_iff key used]
    constructor
    · intro same
      -- The key leaves the modifiers alone, so left Shift was among them.
      have shifted : (keys.press Usage.leftShift).2 = keys := by
        have modifiers := congrArg KeyboardReport.modifiers same
        rw [modifiers_press key] at modifiers
        have slots : (keys.press Usage.leftShift).2.slots = keys.slots :=
          slots_press_of_isModifier (by decide)
        generalize (keys.press Usage.leftShift).2 = pressed at modifiers slots
        cases pressed
        cases modifiers
        cases slots
        rfl
      rw [shifted] at same
      exact ⟨fun _ => shifted, same⟩
    · rintro ⟨shifted, pressed⟩
      rw [shifted rfl, pressed]

end Striking

end KeyboardReport

namespace Gadget

/-- A character that no key types is passed over. -/
theorem typeChar_of_unmapped {c : Char} (unmapped : Usage.ofChar? c = none) (gadget : Gadget) :
    gadget.typeChar c = (.ok (), gadget) := by
  rw [typeChar, unmapped]

/-- Where the first report of a character is accepted, the keys are put back and reported; where it
is refused, its key stays among them. -/
theorem typeChar_of_mapped {c : Char} {stroke : Usage × Bool}
    (typed : Usage.ofChar? c = some stroke) (gadget : Gadget) :
    let struck := gadget.keys.strike stroke
    let reported := gadget.keyboard.after struck.bytes
    gadget.typeChar c =
      if gadget.keyboard.accepts then writeKeyboard { gadget with keyboard := reported }
      else (.error Endpoint.lost, { gadget with keys := struck, keyboard := reported }) := by
  obtain ⟨code, shifted⟩ := stroke
  simp only [typeChar, typed, writeKeyboard, Endpoint.write_eq, KeyboardReport.strike]
  cases gadget.keyboard.accepts with
  | true => rfl
  | false => rfl

/-- The keys after a character. -/
theorem keys_typeChar_of_mapped {c : Char} {stroke : Usage × Bool}
    (typed : Usage.ofChar? c = some stroke) (gadget : Gadget) :
    (gadget.typeChar c).2.keys =
      if gadget.keyboard.accepts then gadget.keys else gadget.keys.strike stroke := by
  rw [typeChar_of_mapped typed]
  split <;> rfl

/-! ## What later reports show -/

/-- From one state of a gadget to another a key is held, and every report of the keyboard that was
accepted shows it. -/
structure Keeps (code : Usage) (before after : Gadget) : Prop where
  /-- The key is held at the end. -/
  held : code ∈ after.keys.slots.toList
  /-- The key is in a slot of every report. -/
  shown : ∃ reports : List KeyboardReport,
    after.keyboard.latest = reports.map KeyboardReport.bytes ++ before.keyboard.latest ∧
      ∀ report ∈ reports, code ∈ report.slots.toList

namespace Keeps

variable {code : Usage} {first before after : Gadget}

/-- Where the keyboard is left alone, it is enough that the key is held. -/
theorem of_held (held : code ∈ before.keys.slots.toList) (keys : after.keys = before.keys)
    (keyboard : after.keyboard = before.keyboard) : Keeps code before after :=
  ⟨keys ▸ held, [], congrArg Endpoint.latest keyboard,
    fun _ listed => (List.not_mem_nil listed).elim⟩

/-- One stretch after another. -/
theorem trans (earlier : Keeps code first before) (later : Keeps code before after) :
    Keeps code first after := by
  obtain ⟨-, reports, written, shown⟩ := earlier
  obtain ⟨held, more, added, also⟩ := later
  refine ⟨held, more ++ reports, ?_, fun report listed => ?_⟩
  · rw [added, written, List.map_append, List.append_assoc]
  · exact (List.mem_append.mp listed).elim (also report) (shown report)

/-- A report that is written shows the keys that it holds, and one that is refused shows nothing. -/
theorem reported {keys : KeyboardReport} (held : code ∈ keys.slots.toList) :
    Keeps code before
      { before with keys := keys, keyboard := before.keyboard.after keys.bytes } := by
  cases accepted : before.keyboard.accepts with
  | true =>
    refine ⟨held, [keys], ?_, fun report listed => ?_⟩
    · rw [Endpoint.after, accepted, if_pos rfl]
      rfl
    · rw [List.mem_singleton.mp listed]
      exact held
  | false =>
    refine ⟨held, [], ?_, fun _ listed => (List.not_mem_nil listed).elim⟩
    rw [Endpoint.after, accepted, if_neg Bool.false_ne_true]
    rfl

/-- So it is with the report of a gadget that was given other keys. -/
theorem writeKeyboard {keys : KeyboardReport} (held : code ∈ keys.slots.toList) :
    Keeps code before (Gadget.writeKeyboard { before with keys := keys }).2 := by
  unfold Gadget.writeKeyboard
  rw [Endpoint.write_eq]
  exact reported held

end Keeps

/-- An action keeps a key held that it does not let go, and its reports show the key. -/
theorem keeps_act {gadget : Gadget} {code : Usage} (used : code ≠ 0)
    (held : code ∈ gadget.keys.slots.toList) {action : Action} (all : action ≠ .releaseAll)
    (this : action ≠ .release code) : Keeps code gadget (gadget.act action).2 := by
  cases action with
  | press other =>
    change Keeps code gadget (gadget.press other).2
    have stays : code ∈ (gadget.keys.press other).2.slots.toList :=
      KeyboardReport.mem_slots_press_of_mem used held
    unfold press
    cases outcome : gadget.keys.press other with
    | mk fits keys =>
      rw [outcome] at stays
      cases fits with
      | true => exact Keeps.writeKeyboard stays
      | false => exact .of_held held rfl rfl
  | release other =>
    have apart : code ≠ other := fun same => this (same ▸ rfl)
    exact Keeps.writeKeyboard (KeyboardReport.mem_slots_release_of_mem apart held)
  | releaseAll => exact absurd rfl all
  | type c =>
    change Keeps code gadget (gadget.typeChar c).2
    cases typed : Usage.ofChar? c with
    | none =>
      rw [typeChar_of_unmapped typed]
      exact .of_held held rfl rfl
    | some stroke =>
      have struck : Keeps code gadget { gadget with
          keys := gadget.keys.strike stroke
          keyboard := gadget.keyboard.after (gadget.keys.strike stroke).bytes } :=
        .reported (KeyboardReport.mem_slots_strike_of_mem used held)
      rw [typeChar_of_mapped typed]
      split
      · exact struck.trans (.writeKeyboard held)
      · exact struck
  | move step => exact .of_held held rfl rfl
  | mouseButton button down => exact .of_held held rfl rfl
  | scroll vertical horizontal => exact .of_held held rfl rfl
  | padButton button down => exact .of_held held rfl rfl
  | padAxis axis value => exact .of_held held rfl rfl
  | padHat hat => exact .of_held held rfl rfl
  | media key down => exact .of_held held rfl rfl
  | delay ms => exact .of_held held rfl rfl

/-- Whatever is done with a gadget and whichever reports are refused, a key stays held until it is
let go, and every report of the keyboard that is accepted shows it. -/
theorem keeps_carriedOut {gadget : Gadget} {code : Usage} (used : code ≠ 0)
    (held : code ∈ gadget.keys.slots.toList) {actions : List Action}
    (kept : ∀ action ∈ actions, action ≠ .releaseAll ∧ action ≠ .release code) :
    Keeps code gadget (carriedOut actions gadget) := by
  induction actions generalizing gadget with
  | nil => exact .of_held held rfl rfl
  | cons action actions ih =>
    obtain ⟨⟨all, this⟩, later⟩ := List.forall_mem_cons.mp kept
    have first := keeps_act used held all this
    exact first.trans (ih first.held later)

/-- Typing a character leaves the keys of any gadget as they were before, accepted or not, just
where no key types the character, or the first report is accepted, or the report absorbs the key. A
key that stays is shown by every later report that is accepted, whichever others are refused, until
it is let go. -/
theorem keys_after_typing (gadget : Gadget) (c : Char) :
    let typed := (gadget.typeChar c).2
    (typed.keys = gadget.keys ↔ ∀ stroke, Usage.ofChar? c = some stroke →
        gadget.keyboard.accepts = true ∨ gadget.keys.Absorbs stroke) ∧
      ∀ stroke, Usage.ofChar? c = some stroke →
        typed.keys =
            (if gadget.keyboard.accepts then gadget.keys else gadget.keys.strike stroke) ∧
          (gadget.keyboard.accepts = false →
            stroke.1 ∈ gadget.keys.slots.toList ∨ 0 ∈ gadget.keys.slots.toList →
              ∀ actions, (∀ action ∈ actions,
                  action ≠ Action.releaseAll ∧ action ≠ .release stroke.1) →
                Keeps stroke.1 typed (carriedOut actions typed)) := by
  intro typed
  refine ⟨?_, fun stroke mapped => ?_⟩
  · cases mapped : Usage.ofChar? c with
    | none =>
      have same : typed = gadget := congrArg Prod.snd (typeChar_of_unmapped mapped gadget)
      exact iff_of_true (congrArg Gadget.keys same) nofun
    | some stroke =>
      rw [show typed.keys = _ from keys_typeChar_of_mapped mapped gadget]
      simp only [Option.some.injEq, forall_eq']
      cases gadget.keyboard.accepts with
      | true => exact iff_of_true rfl (.inl rfl)
      | false =>
        rw [if_neg Bool.false_ne_true, KeyboardReport.strike_eq_iff mapped]
        exact (or_iff_right Bool.false_ne_true).symm
  · have keys : typed.keys = _ := keys_typeChar_of_mapped mapped gadget
    refine ⟨keys, fun refused slot actions kept => ?_⟩
    refine keeps_carriedOut (KeyboardReport.key_of_ofChar? mapped).2 ?_ kept
    rw [keys, refused, if_neg Bool.false_ne_true]
    exact (KeyboardReport.mem_slots_strike mapped).mpr slot

/-- Control is held while a capital letter is typed whose second report is refused: Control alone is
held afterwards. -/
theorem keys_after_typing_second :
    let gadget : Gadget :=
      { keyboard := { lapses := [false, true] }, keys := { modifiers := Usage.ctrlBit } }
    (gadget.typeChar 'C').1 = .error Endpoint.lost ∧ (gadget.typeChar 'C').2.keys = gadget.keys := by
  intro gadget
  exact ⟨rfl, (keys_after_typing gadget 'C').1.mpr fun _ _ => .inl rfl⟩

/-- A letter is typed whose first report is refused: its key stays held, and the next report, of
another key that is let go, shows it. -/
theorem key_left_by_refused :
    let gadget : Gadget := { keyboard := { lapses := [true] } }
    let typed := (gadget.typeChar 'a').2
    (gadget.typeChar 'a').1 = .error Endpoint.lost ∧ typed.keys ≠ gadget.keys ∧
      (performAll [.release Usage.leftCtrl] typed).2.keyboard.written = [0, 0, 4, 0, 0, 0, 0, 0] := by
  decide +kernel

end Gadget

end Keyfob
