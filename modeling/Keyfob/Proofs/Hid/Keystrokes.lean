import Mathlib.Data.List.Induction
import Keyfob.Proofs.Hid.Released

/-!
# What a host reads of a text

A host sees a keyboard as reports of eight bytes, and takes a key as struck when a report shows it
in a slot and the report before did not (`KeyboardReport.strokes`). The keys that type characters
are told apart by their usage and by Shift (`Usage.exists_keycap_of_ofChar?`), and between any two
of them all keys are let go. So a text that is typed on a keyboard where nothing is held is read
back from the bytes, without the characters that no key types (`Gadget.read_of_typed`).
-/
namespace Keyfob

namespace Usage

/-- Whether a key types a character. -/
def types (c : Char) : Bool := (ofChar? c).isSome

/-- The character that a key types, alone or with Shift. -/
def char? (stroke : Usage × Bool) : Option Char :=
  (keycaps.find? (·.code == stroke.1)).bind fun cap => if stroke.2 then cap.shifted else cap.plain

/-- No two keys of the typing area have one usage, and none of them is a modifier or a free slot. -/
theorem keycap_alone : ∀ cap ∈ keycaps,
    char? (cap.code, false) = some cap.plain ∧ char? (cap.code, true) = cap.shifted ∧
      isModifier cap.code = false ∧ cap.code ≠ 0 := by
  decide

/-- The key that types a character is one of the typing area, and types nothing else. -/
theorem exists_keycap_of_ofChar? {c : Char} {stroke : Usage × Bool}
    (typed : ofChar? c = some stroke) :
    ∃ cap ∈ keycaps, stroke.1 = cap.code ∧ char? stroke = some c := by
  unfold ofChar? at typed
  split at typed
  · next cap found =>
    cases typed
    have plain := List.find?_some found
    have listed := List.mem_of_find?_eq_some found
    have back := (keycap_alone cap listed).1
    exact ⟨cap, listed, rfl, back.trans (congrArg some (beq_iff_eq.mp plain))⟩
  · obtain ⟨cap, found, rfl⟩ := Option.map_eq_some_iff.mp typed
    have shifted := List.find?_some found
    have listed := List.mem_of_find?_eq_some found
    have back := (keycap_alone cap listed).2.1
    exact ⟨cap, listed, rfl, back.trans (beq_iff_eq.mp shifted)⟩

/-- The keys of a text type its characters, but for those that no key types. -/
theorem map_char?_filterMap (t : Text) :
    (t.filterMap ofChar?).map char? = (t.filter types).map some := by
  induction t with
  | nil => rfl
  | cons c t ih =>
    cases typed : ofChar? c with
    | none =>
      have none' : ¬types c = true := by simp [types, typed]
      rw [List.filterMap_cons_none typed, List.filter_cons_of_neg none', ih]
    | some stroke =>
      obtain ⟨_, _, _, back⟩ := exists_keycap_of_ofChar? typed
      have some' : types c = true := by simp [types, typed]
      rw [List.filterMap_cons_some typed, List.filter_cons_of_pos some', List.map_cons,
        List.map_cons, back, ih]

end Usage

namespace KeyboardReport

/-- The reports that bytes are, eight to each. Bytes that are too few for one are left over. -/
def readAll : List UInt8 → List KeyboardReport
  | modifiers :: _ :: a :: b :: c :: d :: e :: f :: rest =>
    ⟨modifiers, #v[a, b, c, d, e, f]⟩ :: readAll rest
  | _ => []

/-- The keys that a report shows in a slot and the one before did not. -/
def struck (before report : KeyboardReport) : List Usage :=
  report.slots.toList.filter fun code => code ≠ 0 && !before.slots.toList.contains code

/-- Whether a report shows left Shift held. -/
def shifts (report : KeyboardReport) : Bool := report.modifiers &&& Usage.shiftBit != 0

/-- What reports tell one after another: each key that is struck, and whether left Shift is held
then. -/
def strokes : KeyboardReport → List KeyboardReport → List (Usage × Bool)
  | _, [] => []
  | before, report :: later => (struck before report).map (·, report.shifts) ++ strokes report later

/-- The report of one key, alone or with Shift. -/
def ofStroke (stroke : Usage × Bool) : KeyboardReport :=
  ⟨if stroke.2 then Usage.shiftBit else 0, #v[stroke.1, 0, 0, 0, 0, 0]⟩

/-- The reports of keys that are struck one after another, each being let go before the next. -/
def ofStrokes (strokes : List (Usage × Bool)) : List KeyboardReport :=
  strokes.flatMap fun stroke => [ofStroke stroke, empty]

/-- There are two reports for each key. -/
theorem length_ofStrokes (keys : List (Usage × Bool)) :
    (ofStrokes keys).length = 2 * keys.length := by
  induction keys with
  | nil => rfl
  | cons stroke keys ih =>
    change (ofStrokes keys).length + 2 = 2 * (keys.length + 1)
    omega

/-- After the last key nothing is held. -/
theorem eq_empty_of_getLast?_ofStrokes {keys : List (Usage × Bool)} {last : KeyboardReport}
    (ends : (ofStrokes keys).getLast? = some last) : last = empty := by
  cases keys using List.reverseRecOn with
  | nil => cases ends
  | append_singleton keys stroke =>
    rw [ofStrokes, List.flatMap_append, List.getLast?_append] at ends
    cases ends
    rfl

/-- Reports are read back from their bytes. -/
theorem readAll_bytes (reports : List KeyboardReport) :
    readAll (reports.flatMap bytes) = reports := by
  induction reports with
  | nil => rfl
  | cons report reports ih =>
    obtain ⟨modifiers, ⟨⟨slots⟩, size⟩⟩ := report
    match slots, size with
    | [a, b, c, d, e, f], _ =>
      simp only [List.flatMap_cons, bytes, Vector.toList_mk, List.cons_append, List.nil_append,
        readAll, ih]

/-- A key is held in the first slot where no key is held. -/
theorem press_of_released {code : Usage} (key : Usage.isModifier code = false) (used : code ≠ 0)
    (modifiers : UInt8) :
    press { modifiers := modifiers } code = (true, ⟨modifiers, #v[code, 0, 0, 0, 0, 0]⟩) := by
  have filled : fill? code (Vector.replicate 6 0).toList = some [code, 0, 0, 0, 0, 0] := rfl
  have absent : (Vector.replicate 6 (0 : Usage)).toList.contains code = false := by
    simp [used]
  simp only [press, key, absent, Bool.false_eq_true, if_false]
  split
  · next found =>
    cases filled.symm.trans found
    rfl
  · next full => cases filled.symm.trans full

/-- The key of a character, with Shift where it takes it, makes the report of its stroke. -/
theorem press_of_ofChar? {c : Char} {stroke : Usage × Bool}
    (typed : Usage.ofChar? c = some stroke) :
    ((if stroke.2 then (empty.press Usage.leftShift).2 else empty).press stroke.1).2 =
      ofStroke stroke := by
  obtain ⟨cap, listed, code, _⟩ := Usage.exists_keycap_of_ofChar? typed
  obtain ⟨_, _, key, used⟩ := Usage.keycap_alone cap listed
  rw [← code] at key used
  have pressed (modifiers : UInt8) := press_of_released key used modifiers
  unfold ofStroke
  split
  · exact congrArg Prod.snd (pressed Usage.shiftBit)
  · exact congrArg Prod.snd (pressed 0)

/-- A key that is struck where none is held is told, and nothing else. -/
theorem struck_ofStroke {stroke : Usage × Bool} (used : stroke.1 ≠ 0) :
    struck empty (ofStroke stroke) = [stroke.1] := by
  have absent : stroke.1 ∉ empty.slots := by simp [empty, used]
  simp [struck, ofStroke, used, absent]

/-- Left Shift is told with a key that it is held with. -/
theorem shifts_ofStroke (stroke : Usage × Bool) : shifts (ofStroke stroke) = stroke.2 := by
  obtain ⟨code, shifted⟩ := stroke
  cases shifted with
  | true => exact (by decide : (Usage.shiftBit &&& Usage.shiftBit != 0) = true)
  | false => exact (by decide : (0 &&& Usage.shiftBit != 0) = false)

/-- Where every key is let go, none is struck. -/
theorem struck_empty (before : KeyboardReport) : struck before empty = [] := by
  simp [struck, empty]

/-- What is told by the reports of keys that are struck is these keys. -/
theorem strokes_ofStrokes {keys : List (Usage × Bool)} (used : ∀ stroke ∈ keys, stroke.1 ≠ 0) :
    strokes empty (ofStrokes keys) = keys := by
  induction keys with
  | nil => rfl
  | cons stroke keys ih =>
    obtain ⟨first, later⟩ := List.forall_mem_cons.mp used
    change strokes empty (ofStroke stroke :: empty :: ofStrokes keys) = stroke :: keys
    rw [strokes, strokes, struck_ofStroke first, struck_empty, shifts_ofStroke, ih later]
    rfl

end KeyboardReport

namespace Endpoint

/-- The next writes, so many of them, are accepted. -/
def Bears (endpoint : Endpoint) (count : Nat) : Prop :=
  (∀ lapse ∈ endpoint.lapses.take count, lapse = false) ∧
    ∀ left ∈ endpoint.allowance, count ≤ left

instance (endpoint : Endpoint) (count : Nat) : Decidable (endpoint.Bears count) :=
  inferInstanceAs (Decidable (_ ∧ _))

/-- The next writes are accepted if the first of them is and the others are after it. -/
theorem bears_succ_iff (endpoint : Endpoint) (count : Nat) (report : List UInt8) :
    endpoint.Bears (count + 1) ↔
      endpoint.accepts = true ∧ (endpoint.after report).Bears count := by
  obtain ⟨latest, allowance, lapses⟩ := endpoint
  unfold Bears accepts after accepts Lapses.fails
  match lapses, allowance with
  | [], none => simp [Allowance.spend?]
  | [], some 0 => simp [Allowance.spend?]
  | [], some (left + 1) => simp [Allowance.spend?]
  | true :: lapses, _ => simp
  | false :: lapses, none => simp [Allowance.spend?]
  | false :: lapses, some 0 => simp [Allowance.spend?]
  | false :: lapses, some (left + 1) => simp [Allowance.spend?]

/-- No writes at all are accepted. -/
theorem bears_zero (endpoint : Endpoint) : endpoint.Bears 0 := by
  simp [Bears]

/-- The endpoint after reports that are written. -/
def afterAll (endpoint : Endpoint) (reports : List KeyboardReport) : Endpoint :=
  reports.foldl (fun endpoint report => endpoint.after report.bytes) endpoint

/-- The next writes are accepted if those of some reports are and the others are after them. -/
theorem bears_add_iff (endpoint : Endpoint) (reports : List KeyboardReport) (count : Nat) :
    endpoint.Bears (reports.length + count) ↔
      endpoint.Bears reports.length ∧ (endpoint.afterAll reports).Bears count := by
  induction reports generalizing endpoint with
  | nil => simp [afterAll, bears_zero]
  | cons report reports ih =>
    rw [List.length_cons, Nat.add_right_comm, bears_succ_iff endpoint _ report.bytes,
      bears_succ_iff endpoint _ report.bytes, ih, and_assoc]
    rfl

/-- Reports that are accepted are written one after another. -/
theorem written_afterAll {endpoint : Endpoint} {reports : List KeyboardReport}
    (bears : endpoint.Bears reports.length) :
    (endpoint.afterAll reports).written =
      endpoint.written ++ reports.flatMap KeyboardReport.bytes := by
  induction reports generalizing endpoint with
  | nil => exact (List.append_nil _).symm
  | cons report reports ih =>
    obtain ⟨accepts, later⟩ := (bears_succ_iff endpoint _ report.bytes).mp bears
    have first : (endpoint.after report.bytes).written = endpoint.written ++ report.bytes := by
      simp [written, after, accepts]
    rw [afterAll, List.foldl_cons, List.flatMap_cons, ← List.append_assoc, ← first]
    exact ih later

end Endpoint

namespace Gadget

/-- A character that a key types strikes this key, where none is held and both reports are
accepted. -/
theorem typeChar_of_released {gadget : Gadget} (released : gadget.keys = .empty) {c : Char}
    {stroke : Usage × Bool} (typed : Usage.ofChar? c = some stroke) :
    ((gadget.typeChar c).1 = .ok () ↔ gadget.keyboard.Bears 2) ∧
      (gadget.keyboard.Bears 2 → (gadget.typeChar c).2 =
        { gadget with keyboard := gadget.keyboard.afterAll [.ofStroke stroke, .empty] }) := by
  have bears : gadget.keyboard.Bears 2 ↔ gadget.keyboard.accepts = true ∧
      (gadget.keyboard.after (KeyboardReport.ofStroke stroke).bytes).accepts = true := by
    rw [Endpoint.bears_succ_iff _ 1 (KeyboardReport.ofStroke stroke).bytes,
      Endpoint.bears_succ_iff _ 0 KeyboardReport.empty.bytes]
    simp only [Endpoint.bears_zero, and_true]
  rw [bears]
  unfold typeChar
  simp only [typed, released, KeyboardReport.press_of_ofChar? typed,
    writeKeyboard, Endpoint.write_eq]
  cases gadget.keyboard.accepts with
  | false => simp
  | true =>
    cases second : (gadget.keyboard.after (KeyboardReport.ofStroke stroke).bytes).accepts with
    | false => simp [second]
    | true => simp [second, Endpoint.afterAll, ← released]

/-- A pause changes nothing. -/
theorem performAll_pause (gadget : Gadget) (ms : UInt32) :
    performAll (Action.pause ms) gadget = (.ok (), gadget) := by
  unfold Action.pause
  split
  · rfl
  · rfl

/-- A character that is typed and followed by a pause is just typed. -/
theorem performAll_typePaced (gadget : Gadget) (pace : UInt32) (c : Char) :
    performAll (Action.typePaced pace c) gadget = gadget.typeChar c := by
  have struck : Device.perform (.type c) gadget = gadget.typeChar c := rfl
  rw [Action.typePaced, performAll, struck]
  cases gadget.typeChar c with
  | mk result after =>
    cases result with
    | ok _ => exact performAll_pause after pace
    | error e => rfl

/-- A text strikes the keys of its characters, where none is held and all reports are accepted. -/
theorem typeText_of_released {gadget : Gadget} (released : gadget.keys = .empty) (pace : UInt32)
    (t : Text) :
    let reports := KeyboardReport.ofStrokes (t.filterMap Usage.ofChar?)
    let typed := performAll (Action.typeText pace t) gadget
    (typed.1 = .ok () ↔ gadget.keyboard.Bears reports.length) ∧
      (gadget.keyboard.Bears reports.length →
        typed.2 = { gadget with keyboard := gadget.keyboard.afterAll reports }) := by
  induction t generalizing gadget with
  | nil => exact ⟨iff_of_true rfl gadget.keyboard.bears_zero, fun _ => rfl⟩
  | cons c t ih =>
    dsimp only at ih ⊢
    rw [Action.typeText, List.flatMap_cons, performAll_append, performAll_typePaced]
    cases typed : Usage.ofChar? c with
    | none =>
      have passed : gadget.typeChar c = (.ok (), gadget) := by
        unfold typeChar
        rw [typed]
      rw [passed, List.filterMap_cons_none typed]
      exact ih released
    | some stroke =>
      have reports : KeyboardReport.ofStrokes ((c :: t).filterMap Usage.ofChar?) =
          [.ofStroke stroke, .empty] ++ KeyboardReport.ofStrokes (t.filterMap Usage.ofChar?) := by
        rw [List.filterMap_cons_some typed]
        rfl
      obtain ⟨accepted, left⟩ := typeChar_of_released released typed
      rw [reports, List.length_append, Endpoint.bears_add_iff]
      cases outcome : gadget.typeChar c with
      | mk result after =>
        rw [outcome] at accepted left
        cases result with
        | error e =>
          have failed : (Except.error e : Except HidError Unit) ≠ .ok () := by simp
          have refused : ¬gadget.keyboard.Bears 2 := fun bears => failed (accepted.mpr bears)
          exact ⟨iff_of_false failed fun both => refused both.1,
            fun both => absurd both.1 refused⟩
        | ok _ =>
          have bears := accepted.mp rfl
          have held := left bears
          dsimp only at held
          subst held
          -- Nothing is held after the character either, so the rest is typed as from the start.
          have rest := @ih { gadget with
            keyboard := gadget.keyboard.afterAll [.ofStroke stroke, .empty] } released
          obtain ⟨later, ended⟩ := rest
          exact ⟨later.trans ⟨fun rest => ⟨bears, rest⟩, And.right⟩, fun both => ended both.2⟩

/-- A text that is typed where no key is held is read back from the reports of the keyboard, without
the characters that no key types, and no key is held after it. It is typed to its end just where the
keyboard accepts two reports for each character. -/
theorem read_of_typed (gadget : Gadget) (released : gadget.keys = .empty) (pace : UInt32)
    (t : Text) :
    let typed := performAll (Action.typeText pace t) gadget
    let characters := t.filter Usage.types
    (typed.1 = .ok () ↔ gadget.keyboard.Bears (2 * characters.length)) ∧
      (typed.1 = .ok () → ∃ bytes,
        typed.2.keyboard.written = gadget.keyboard.written ++ bytes ∧
          let reports := KeyboardReport.readAll bytes
          reports.flatMap KeyboardReport.bytes = bytes ∧
            (KeyboardReport.strokes .empty reports).map Usage.char? = characters.map some ∧
            ∀ last, reports.getLast? = some last → last.bytes = List.replicate 8 0) := by
  let keys := t.filterMap Usage.ofChar?
  have characters : keys.map Usage.char? = (t.filter Usage.types).map some :=
    Usage.map_char?_filterMap t
  have count : (KeyboardReport.ofStrokes keys).length = 2 * (t.filter Usage.types).length := by
    have same := congrArg List.length characters
    rw [List.length_map, List.length_map] at same
    rw [KeyboardReport.length_ofStrokes, same]
  have used : ∀ stroke ∈ keys, stroke.1 ≠ 0 := by
    intro stroke listed
    obtain ⟨c, _, typed⟩ := List.mem_filterMap.mp listed
    obtain ⟨cap, isKey, code, _⟩ := Usage.exists_keycap_of_ofChar? typed
    exact code ▸ (Usage.keycap_alone cap isKey).2.2.2
  obtain ⟨accepted, ended⟩ := typeText_of_released released pace t
  dsimp only at accepted ended ⊢
  rw [← count]
  refine ⟨accepted, fun done => ?_⟩
  have bears := accepted.mp done
  refine ⟨(KeyboardReport.ofStrokes keys).flatMap KeyboardReport.bytes, ?_, ?_⟩
  · rw [ended bears]
    exact Endpoint.written_afterAll bears
  · rw [KeyboardReport.readAll_bytes, KeyboardReport.strokes_ofStrokes used]
    refine ⟨rfl, characters, fun last ends => ?_⟩
    rw [KeyboardReport.eq_empty_of_getLast?_ofStrokes ends]
    rfl

/-- A keyboard that has struck Enter and accepts ten reports more. -/
def shownEnter : Gadget :=
  { keyboard :=
      { latest := (KeyboardReport.ofStrokes [(Usage.enter, false)]).reverse.map KeyboardReport.bytes
        allowance := some 10 } }

/-- On it a text is read back in which a character comes twice in a row and then with Shift, and
which has one among the others that no key types. -/
theorem read_of_typed_twice :
    shownEnter.keys = .empty ∧ ∃ bytes,
      (performAll (Action.typeText 5 "aaA\r\n?") shownEnter).2.keyboard.written =
        shownEnter.keyboard.written ++ bytes ∧
      (KeyboardReport.strokes .empty (KeyboardReport.readAll bytes)).map Usage.char? =
        "aaA\n?".toList.map some := by
  have facts := read_of_typed shownEnter rfl 5 "aaA\r\n?"
  obtain ⟨bytes, written, _, characters, _⟩ := facts.2 (facts.1.mpr (by decide))
  exact ⟨rfl, bytes, written, characters⟩

end Gadget

end Keyfob
