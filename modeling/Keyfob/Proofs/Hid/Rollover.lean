import Mathlib.Data.Finset.Card
import Keyfob.Proofs.Hid.Typing

/-!
# The held keys as a set

A keyboard report keeps its keys in six slots, any of which may be free between others, and its
modifiers in eight bits. Seen from outside it is a set of keys: a key that is pressed is inserted,
one that is let go is taken out, and a key other than a modifier is refused just while six others
are held (`KeySet.Refuses`). The slots never hold a key twice, nor a modifier
(`KeyboardReport.Sound`), whatever was pressed again, refused or let go before, so they and the bits
tell the set exactly (`KeyboardReport.holds_of_calls`).
-/
namespace Keyfob

/-! ## The bits of the modifiers -/

namespace Usage

/-- The eight modifier keys. -/
def modifierKeys : List Usage := modifierUsages 0xff

/-- The modifier keys are the eight with the usages of modifiers. -/
theorem mem_modifierKeys_iff (code : Usage) : code ∈ modifierKeys ↔ isModifier code = true := by
  obtain ⟨⟨code⟩⟩ := code
  revert code
  decide +kernel

/-- The bits of the modifier keys tell them apart. -/
theorem modifierBit_alone : ∀ code ∈ modifierKeys, ∀ other ∈ modifierKeys,
    modifierBit other ≠ 0 ∧
      (modifierBit code &&& modifierBit other = if other = code then modifierBit other else 0) ∧
      ~~~modifierBit code &&& modifierBit other =
        if other = code then 0 else modifierBit other := by
  decide +kernel

/-- Of two masks together, a third one meets what it meets of either. -/
theorem or_and (first second mask : UInt8) :
    (first ||| second) &&& mask = (first &&& mask) ||| (second &&& mask) := by
  apply UInt8.toBitVec_inj.mp
  ext place _
  simp [Bool.and_or_distrib_right]

/-- A key is among those of a mask if it is a modifier and its bit is set. -/
theorem mem_modifierUsages_iff (mask : UInt8) (code : Usage) :
    code ∈ modifierUsages mask ↔ code ∈ modifierKeys ∧ mask &&& modifierBit code ≠ 0 := by
  have every : modifierKeys = [0xe0, 0xe1, 0xe2, 0xe3, 0xe4, 0xe5, 0xe6, 0xe7] := by decide +kernel
  rw [modifierUsages, List.mem_filter, every, decide_eq_true_iff]

section Modifiers

variable {code : Usage} (modifier : isModifier code = true) (mask : UInt8) (other : Usage)

include modifier

/-- Setting the bit of a modifier inserts it. -/
theorem mem_modifierUsages_or :
    other ∈ modifierUsages (mask ||| modifierBit code) ↔
      other = code ∨ other ∈ modifierUsages mask := by
  have known := (mem_modifierKeys_iff code).mpr modifier
  rw [mem_modifierUsages_iff, mem_modifierUsages_iff]
  by_cases listed : other ∈ modifierKeys
  · obtain ⟨some', shared, -⟩ := modifierBit_alone code known other listed
    rw [or_and, shared]
    by_cases same : other = code
    · simp [same, known, same ▸ some']
    · simp [same, listed]
  · have apart : other ≠ code := fun same => listed (same ▸ known)
    simp [listed, apart]

/-- Taking the bit of a modifier away takes it out. -/
theorem mem_modifierUsages_and_not :
    other ∈ modifierUsages (mask &&& ~~~modifierBit code) ↔
      other ≠ code ∧ other ∈ modifierUsages mask := by
  have known := (mem_modifierKeys_iff code).mpr modifier
  rw [mem_modifierUsages_iff, mem_modifierUsages_iff]
  by_cases listed : other ∈ modifierKeys
  · obtain ⟨-, -, cleared⟩ := modifierBit_alone code known other listed
    rw [UInt8.and_assoc, cleared]
    by_cases same : other = code
    · simp [same]
    · simp [same, listed]
  · simp [listed]

end Modifiers

end Usage

/-! ## Sets of keys -/

namespace KeySet

/-- The keys of a set other than modifiers. -/
def ordinary (keys : Finset Usage) : Finset Usage :=
  keys.filter fun code => Usage.isModifier code = false

/-- A key is refused if it is no modifier and six others that are none are held. -/
def Refuses (keys : Finset Usage) (code : Usage) : Prop :=
  Usage.isModifier code = false ∧ 6 ≤ ((ordinary keys).erase code).card

instance (keys : Finset Usage) (code : Usage) : Decidable (Refuses keys code) :=
  inferInstanceAs (Decidable (_ ∧ _))

end KeySet

namespace KeyboardReport

/-- A call of a keyboard report. -/
inductive Call where
  /-- Hold a key. -/
  | press (code : Usage)
  /-- Let a key go. -/
  | release (code : Usage)
  /-- Let every key go. -/
  | clear
deriving DecidableEq

/-- A call is about a key, and not about the zero of a free slot. -/
def Call.Keyed : Call → Prop
  | press code => code ≠ 0
  | release code => code ≠ 0
  | clear => True

/-- The report after a call. -/
def call (report : KeyboardReport) : Call → KeyboardReport
  | .press code => (report.press code).2
  | .release code => report.release code
  | .clear => empty

/-- The report after calls in order. -/
def after (report : KeyboardReport) (calls : List Call) : KeyboardReport := calls.foldl call report

/-- The keys in the slots, in the order of the slots. -/
def slotted (report : KeyboardReport) : List Usage :=
  report.slots.toList.filter fun slot => slot ≠ 0

/-- The keys that a report tells: those in its slots, and the modifiers whose bits are set. -/
def held (report : KeyboardReport) : Finset Usage :=
  report.slotted.toFinset ∪ (Usage.modifierUsages report.modifiers).toFinset

end KeyboardReport

/-- The set of keys after a call. -/
def KeySet.call (keys : Finset Usage) : KeyboardReport.Call → Finset Usage
  | .press code => if Refuses keys code then keys else insert code keys
  | .release code => keys.erase code
  | .clear => ∅

/-- The set of keys after calls in order. -/
def KeySet.after (keys : Finset Usage) (calls : List KeyboardReport.Call) : Finset Usage :=
  calls.foldl KeySet.call keys

namespace KeyboardReport

/-! ## The keys in the slots -/

/-- A report whose slots hold no key twice, and no modifier. -/
structure Sound (report : KeyboardReport) : Prop where
  /-- No key is in two slots. -/
  distinct : report.slotted.Nodup
  /-- No modifier is in a slot. -/
  ordinary : ∀ code ∈ report.slotted, Usage.isModifier code = false

/-- A key that finds a slot is added to the keys in the slots. -/
theorem perm_of_fill? {code : Usage} (used : code ≠ 0) {slots filled : List Usage}
    (found : fill? code slots = some filled) :
    (filled.filter fun slot => slot ≠ 0).Perm (code :: slots.filter fun slot => slot ≠ 0) := by
  induction slots generalizing filled with
  | nil => cases found
  | cons slot slots ih =>
    rw [fill?] at found
    by_cases free : slot = 0
    · rw [if_pos free] at found
      cases found
      simp [free, used]
    · rw [if_neg free] at found
      obtain ⟨rest, inner, rfl⟩ := Option.map_eq_some_iff.mp found
      have kept (later : List Usage) : (slot :: later).filter (fun slot => slot ≠ 0) =
          slot :: later.filter fun slot => slot ≠ 0 := List.filter_cons_of_pos (decide_eq_true free)
      rw [kept, kept]
      exact ((ih inner).cons slot).trans (.swap code slot _)

section Slots

variable {report : KeyboardReport} {code : Usage}

/-- A key is in a slot. -/
theorem mem_slotted_iff (used : code ≠ 0) :
    code ∈ report.slotted ↔ code ∈ report.slots.toList := by
  rw [slotted, List.mem_filter, decide_eq_true_iff, and_iff_left used]

/-- A slot is free just where fewer than six hold a key. -/
theorem length_slotted_lt_iff : report.slotted.length < 6 ↔ 0 ∈ report.slots.toList := by
  have six : report.slots.toList.length = 6 := Vector.length_toList
  have fewer := List.length_filter_lt_length_iff_exists (l := report.slots.toList)
    (p := fun slot => decide (slot ≠ 0))
  rw [six] at fewer
  rw [slotted, fewer]
  simp

/-- There are no more than six keys in the slots. -/
theorem length_slotted_le (report : KeyboardReport) : report.slotted.length ≤ 6 := by
  have all := List.length_filter_le (fun slot => decide (slot ≠ 0)) report.slots.toList
  rwa [Vector.length_toList] at all

variable (key : Usage.isModifier code = false)

include key

/-- A key that is let go leaves its slot, and no other does. -/
theorem slotted_release :
    (report.release code).slotted = report.slotted.filter fun slot => slot ≠ code := by
  have slots : (report.release code).slots =
      report.slots.map fun slot => if slot = code then 0 else slot := by
    simp only [release, key, Bool.false_eq_true, if_false]
  rw [slotted, slotted, slots, Vector.toList_map, List.filter_filter]
  induction report.slots.toList with
  | nil => rfl
  | cons slot slots ih =>
    by_cases same : slot = code
    · simpa [same] using ih
    · by_cases free : slot = 0
      · simpa [free, same] using ih
      · simpa [free, same] using ih

/-- A key that is let go leaves the modifiers as they are. -/
theorem modifiers_release : (report.release code).modifiers = report.modifiers := by
  simp only [release, key, Bool.false_eq_true, if_false]

variable (used : code ≠ 0)

include used

/-- A key that is in a slot may be pressed again. -/
theorem press_of_mem (listed : code ∈ report.slotted) : report.press code = (true, report) := by
  have there := (mem_slotted_iff used).mp listed
  simp only [press, key, List.contains_iff_mem, there, Bool.false_eq_true, if_false, if_true]

/-- A key that is in no slot takes a free one. -/
theorem press_of_free (absent : code ∉ report.slotted) (free : report.slotted.length < 6) :
    (report.press code).1 = true ∧ (report.press code).2.slotted.Perm (code :: report.slotted) := by
  have missing := mt (mem_slotted_iff used).mpr absent
  have fits := (isSome_fill?_iff code _).mpr (length_slotted_lt_iff.mp free)
  simp only [press, key, List.contains_iff_mem, missing, Bool.false_eq_true, if_false]
  split
  · next filled found => exact ⟨rfl, perm_of_fill? used found⟩
  · next full => simp [full] at fits

/-- A key that is in no slot is refused while none is free. -/
theorem press_of_taken (absent : code ∉ report.slotted) (taken : report.slotted.length = 6) :
    report.press code = (false, report) := by
  have missing := mt (mem_slotted_iff used).mpr absent
  have none' : 0 ∉ report.slots.toList := mt length_slotted_lt_iff.mpr (by omega)
  have full := mt (isSome_fill?_iff code _).mp none'
  simp only [press, key, List.contains_iff_mem, missing, Bool.false_eq_true, if_false]
  split
  · next filled found => simp [found] at full
  · rfl

end Slots

/-! ## What is held -/

section Held

variable {report : KeyboardReport} {code : Usage}

/-- What is held is in a slot or among the modifiers. -/
theorem mem_held_iff :
    code ∈ report.held ↔ code ∈ report.slotted ∨ code ∈ Usage.modifierUsages report.modifiers := by
  simp only [held, Finset.mem_union, List.mem_toFinset]

/-- A key among those of a mask is a modifier. -/
theorem isModifier_of_mem {mask : UInt8} (listed : code ∈ Usage.modifierUsages mask) :
    Usage.isModifier code = true :=
  (Usage.mem_modifierKeys_iff code).mp ((Usage.mem_modifierUsages_iff mask code).mp listed).1

/-- The held keys other than modifiers are those in the slots. -/
theorem Sound.ordinary_held (sound : report.Sound) :
    KeySet.ordinary report.held = report.slotted.toFinset := by
  ext code
  rw [KeySet.ordinary, Finset.mem_filter, mem_held_iff, List.mem_toFinset]
  constructor
  · rintro ⟨slotted | modifier, key⟩
    · exact slotted
    · rw [isModifier_of_mem modifier] at key
      cases key
  · intro slotted
    exact ⟨.inl slotted, sound.ordinary code slotted⟩

/-- The set of the held keys refuses a key just where it is in no slot and none is free. -/
theorem Sound.refuses_iff (sound : report.Sound) (key : Usage.isModifier code = false) :
    KeySet.Refuses report.held code ↔ code ∉ report.slotted ∧ report.slotted.length = 6 := by
  have size := List.toFinset_card_of_nodup sound.distinct
  have most := length_slotted_le report
  rw [KeySet.Refuses, sound.ordinary_held, and_iff_right key]
  by_cases listed : code ∈ report.slotted
  · have fewer := Finset.card_erase_lt_of_mem (List.mem_toFinset.mpr listed)
    refine iff_of_false ?_ fun refused => refused.1 listed
    omega
  · rw [Finset.erase_eq_of_notMem (mt List.mem_toFinset.mp listed), size, and_iff_right listed]
    omega

/-- A modifier is never refused. -/
theorem not_refuses_of_isModifier (keys : Finset Usage)
    (modifier : Usage.isModifier code = true) : ¬KeySet.Refuses keys code := by
  rintro ⟨key, -⟩
  rw [modifier] at key
  cases key

/-- A key is refused by the report just where it is refused by the set of the held keys. -/
theorem Sound.press_eq_false_iff (sound : report.Sound) (used : code ≠ 0) :
    (report.press code).1 = false ↔ KeySet.Refuses report.held code := by
  cases key : Usage.isModifier code with
  | true =>
    have taken : (report.press code).1 = true := by simp only [press, key, if_true]
    refine iff_of_false ?_ (not_refuses_of_isModifier report.held key)
    rw [taken]
    exact Bool.false_ne_true.symm
  | false =>
    rw [sound.refuses_iff key]
    by_cases listed : code ∈ report.slotted
    · rw [press_of_mem key used listed]
      exact iff_of_false Bool.false_ne_true.symm fun refused => refused.1 listed
    · rw [and_iff_right listed]
      by_cases free : report.slotted.length < 6
      · have taken := (press_of_free key used listed free).1
        refine iff_of_false ?_ (by omega)
        rw [taken]
        exact Bool.false_ne_true.symm
      · have most := length_slotted_le report
        have full : report.slotted.length = 6 := by omega
        rw [press_of_taken key used listed full]
        exact iff_of_true rfl full

end Held

/-! ## One call -/

section Calls

variable {report : KeyboardReport} {code : Usage}

/-- Pressing a key is inserting it, unless it is refused. -/
theorem Sound.press (sound : report.Sound) (used : code ≠ 0) :
    (report.press code).2.Sound ∧
      (report.press code).2.held = KeySet.call report.held (.press code) := by
  rw [KeySet.call]
  cases key : Usage.isModifier code with
  | true =>
    have pressed : (report.press code).2 =
        { report with modifiers := report.modifiers ||| Usage.modifierBit code } := by
      simp only [KeyboardReport.press, key, if_true]
    rw [pressed, if_neg (not_refuses_of_isModifier report.held key)]
    refine ⟨⟨sound.distinct, sound.ordinary⟩, ?_⟩
    ext other
    rw [Finset.mem_insert, mem_held_iff, mem_held_iff, Usage.mem_modifierUsages_or key]
    exact or_left_comm
  | false =>
    simp only [sound.refuses_iff key]
    by_cases listed : code ∈ report.slotted
    · rw [press_of_mem key used listed, if_neg fun refused => refused.1 listed]
      exact ⟨sound, (Finset.insert_eq_self.mpr (mem_held_iff.mpr (.inl listed))).symm⟩
    · by_cases free : report.slotted.length < 6
      · obtain ⟨-, slotted⟩ := press_of_free key used listed free
        rw [if_neg (by omega)]
        constructor
        · refine ⟨slotted.nodup_iff.mpr (List.nodup_cons.mpr ⟨listed, sound.distinct⟩), ?_⟩
          intro other there
          rcases List.mem_cons.mp (slotted.subset there) with rfl | older
          · exact key
          · exact sound.ordinary other older
        · ext other
          rw [Finset.mem_insert, mem_held_iff, mem_held_iff, modifiers_press key,
            slotted.mem_iff, List.mem_cons, or_assoc]
      · have most := length_slotted_le report
        have full : report.slotted.length = 6 := by omega
        rw [press_of_taken key used listed full, if_pos ⟨listed, full⟩]
        exact ⟨sound, rfl⟩

/-- Letting a key go is taking it out. -/
theorem Sound.release (sound : report.Sound) :
    (report.release code).Sound ∧
      (report.release code).held = KeySet.call report.held (.release code) := by
  rw [KeySet.call]
  cases key : Usage.isModifier code with
  | true =>
    have released : report.release code =
        { report with modifiers := report.modifiers &&& ~~~Usage.modifierBit code } := by
      simp only [KeyboardReport.release, key, if_true]
    rw [released]
    refine ⟨⟨sound.distinct, sound.ordinary⟩, ?_⟩
    ext other
    rw [Finset.mem_erase, mem_held_iff, mem_held_iff, Usage.mem_modifierUsages_and_not key]
    -- A modifier is in no slot, so none has to be emptied.
    have apart : other ∈ report.slotted → other ≠ code := by
      rintro slotted rfl
      rw [sound.ordinary other slotted] at key
      cases key
    constructor
    · rintro (slotted | ⟨others, modifier⟩)
      · exact ⟨apart slotted, .inl slotted⟩
      · exact ⟨others, .inr modifier⟩
    · rintro ⟨others, slotted | modifier⟩
      · exact .inl slotted
      · exact .inr ⟨others, modifier⟩
  | false =>
    have slotted : (report.release code).slotted =
        report.slotted.filter fun slot => slot ≠ code := slotted_release key
    constructor
    · refine ⟨?_, fun other there => ?_⟩
      · rw [slotted]
        exact sound.distinct.filter _
      · rw [slotted] at there
        exact sound.ordinary other (List.mem_of_mem_filter there)
    · ext other
      rw [Finset.mem_erase, mem_held_iff, mem_held_iff, modifiers_release key, slotted,
        List.mem_filter, decide_eq_true_iff]
      have apart : other ∈ Usage.modifierUsages report.modifiers → other ≠ code := by
        rintro modifier rfl
        rw [isModifier_of_mem modifier] at key
        cases key
      constructor
      · rintro (⟨there, others⟩ | modifier)
        · exact ⟨others, .inl there⟩
        · exact ⟨apart modifier, .inr modifier⟩
      · rintro ⟨others, there | modifier⟩
        · exact .inl ⟨there, others⟩
        · exact .inr modifier

/-- Nothing is held in the empty report. -/
theorem sound_empty : empty.Sound ∧ empty.held = ∅ := by
  have slotted : empty.slotted = [] := by decide +kernel
  have modifiers : Usage.modifierUsages empty.modifiers = [] := by decide +kernel
  refine ⟨⟨?_, ?_⟩, ?_⟩
  · rw [slotted]
    exact .nil
  · rw [slotted]
    exact nofun
  · rw [held, slotted, modifiers]
    rfl

/-- A call keeps a report sound, and does to the held keys what it does to a set. -/
theorem Sound.call (sound : report.Sound) {call : Call} (keyed : call.Keyed) :
    (report.call call).Sound ∧ (report.call call).held = KeySet.call report.held call := by
  cases call with
  | press code => exact sound.press keyed
  | release code => exact sound.release
  | clear => exact sound_empty

/-- So do any calls. -/
theorem Sound.after (sound : report.Sound) {calls : List Call}
    (keyed : ∀ call ∈ calls, call.Keyed) :
    (report.after calls).Sound ∧ (report.after calls).held = KeySet.after report.held calls := by
  induction calls generalizing report with
  | nil => exact ⟨sound, rfl⟩
  | cons call calls ih =>
    obtain ⟨first, later⟩ := List.forall_mem_cons.mp keyed
    obtain ⟨still, held⟩ := sound.call first
    rw [KeySet.after, List.foldl_cons, ← held]
    exact ih still later

end Calls

/-- After any calls about keys, from no key held: the slots hold no key twice and no modifier, and
they and the bits tell exactly the set into which the pressed keys were inserted and from which
those let go were taken out, where a key other than a modifier is refused just while six others are
held. And a press is answered with no exactly where the set refuses its key. -/
theorem holds_of_calls (calls : List Call) (keyed : ∀ call ∈ calls, call.Keyed) :
    let report := empty.after calls
    let keys := KeySet.after ∅ calls
    report.slotted.Nodup ∧
      (∀ code ∈ report.slotted, Usage.isModifier code = false) ∧
      report.held = keys ∧
      ∀ code, code ≠ 0 → ((report.press code).1 = false ↔ KeySet.Refuses keys code) := by
  intro report keys
  obtain ⟨start, none'⟩ := sound_empty
  obtain ⟨sound, held⟩ := start.after keyed
  rw [none'] at held
  refine ⟨sound.distinct, sound.ordinary, held, fun code used => ?_⟩
  rw [← show report.held = keys from held]
  exact sound.press_eq_false_iff used

/-- Six letters are held with left Shift, a seventh is refused and let go, one of the six is pressed
again and another one is let go: the slot of that one is taken by the next key, and then the next
but one is refused. -/
theorem holds_of_calls_rollover :
    let calls : List Call := [.press 4, .press 5, .press 6, .press 7, .press 8, .press 9,
      .press Usage.leftShift, .press 10, .release 10, .press 4, .release 6, .press 11]
    let report := empty.after calls
    (∀ call ∈ calls, call.Keyed) ∧ (12 : Usage) ≠ 0 ∧
      report.slotted = [4, 5, 11, 7, 8, 9] ∧
      report.held = KeySet.after ∅ calls ∧
      (report.press 12).1 = false ∧ KeySet.Refuses (KeySet.after ∅ calls) 12 := by
  intro calls report
  have keyed : ∀ call ∈ calls, call.Keyed := by
    simp [calls, Call.Keyed, Usage.leftShift]
  have used : (12 : Usage) ≠ 0 := by decide
  obtain ⟨-, -, held, answer⟩ := holds_of_calls calls keyed
  have refused : (report.press 12).1 = false := by decide +kernel
  exact ⟨keyed, used, by decide +kernel, held, refused, (answer 12 used).mp refused⟩

end KeyboardReport

end Keyfob
