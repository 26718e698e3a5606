import Keyfob.Proofs.Store.Durability

/-!
# A login code that cannot be stored

The digits of a login code are stored one by one, and the code is in force before the first of
them is stored. Where storing fails, the new code is in force until the next start, and then a
code that begins with the digits that were stored and goes on with those of the code before
(`Pin.spliced`), so the code before is kept only where it is the new one.
-/
namespace Keyfob

namespace Pin

/-- The code that begins with so many digits of one code and goes on with those of another. -/
def spliced (n : Nat) (front back : Pin) : Pin :=
  ⟨Vector.ofFn fun place => if place.val < n then front.digits[place] else back.digits[place]⟩

/-- Codes with the same digits are the same. -/
theorem eq_of_digits {pin other : Pin}
    (same : ∀ place : Fin 4, pin.digits[place] = other.digits[place]) : pin = other := by
  obtain ⟨digits⟩ := pin
  obtain ⟨digits'⟩ := other
  congr 1
  exact Vector.ext fun place inside => same ⟨place, inside⟩

/-- A digit of a spliced code. -/
theorem getElem_spliced (n : Nat) (front back : Pin) (place : Fin 4) :
    (spliced n front back).digits[place] =
      if place.val < n then front.digits[place] else back.digits[place] :=
  Vector.getElem_ofFn _

/-- A code goes on with itself. -/
theorem spliced_self (n : Nat) (pin : Pin) : spliced n pin pin = pin := by
  refine eq_of_digits fun place => ?_
  rw [getElem_spliced, ite_self]

/-- A code of all four digits of one code is that code. -/
theorem spliced_four (front back : Pin) : spliced 4 front back = front := by
  refine eq_of_digits fun place => ?_
  rw [getElem_spliced, if_pos place.isLt]

end Pin

namespace AccessCodes

open KeyValueStore (Change View)

variable {κ : Type} [KeyValueStore κ]

/-- The keys of the four digits. -/
def keys : List Text := [key 0, key 1, key 2, key 3]

/-- Each digit is stored under a key of its own. -/
theorem targets_changes (pin : Pin) :
    (changes pin).map Change.target = keys.map fun key => (space, some key) := by
  obtain ⟨⟨⟨digits⟩, four⟩⟩ := pin
  match digits, four with
  | [a, b, c, d], _ => rfl

/-- There are four changes. -/
theorem length_changes (pin : Pin) : (changes pin).length = 4 := by
  have same := congrArg List.length (targets_changes pin)
  rw [List.length_map, List.length_map] at same
  exact same

/-- The change that stores the digit at a place. -/
theorem getElem?_changes (pin : Pin) (place : Fin 4) :
    (changes pin)[place.val]? =
      some (.set space (key place) (.int (Int64.ofNat pin.digits[place].val))) := by
  obtain ⟨⟨⟨digits⟩, four⟩⟩ := pin
  match digits, four, place with
  | [a, b, c, d], _, 0 => rfl
  | [a, b, c, d], _, 1 => rfl
  | [a, b, c, d], _, 2 => rfl
  | [a, b, c, d], _, 3 => rfl

/-- The digit that a value is read as. -/
def digit? : Option StoreValue → Option Digit
  | some (.int value) => some (Pin.lastDigit (value.toInt % 10).toNat)
  | _ => none

/-- A stored digit is read back. -/
theorem digit?_int : ∀ digit : Digit,
    digit? (some (.int (Int64.ofNat digit.val))) = some digit := by decide

/-- A stored digit is what is read under its key. -/
theorem storedDigit?_eq (store : κ) (place : Nat) :
    storedDigit? store place =
      digit? ((KeyValueStore.contents store).find? space (key place)) := by
  unfold storedDigit? KeyValueStore.getInt? KeyValueStore.get?
  cases (KeyValueStore.contents store).find? space (key place) with
  | none => rfl
  | some value => cases value <;> rfl

/-- A code is stored where each of its digits is. -/
theorem stored?_eq_some_iff (store : κ) (pin : Pin) :
    stored? store = some pin ↔
      ∀ place : Fin 4, storedDigit? store place = some pin.digits[place] := by
  constructor
  · intro stored place
    unfold stored? at stored
    split at stored
    · next a b c d first second third fourth =>
      cases stored
      match place with
      | 0 => exact first
      | 1 => exact second
      | 2 => exact third
      | 3 => exact fourth
    · cases stored
  · intro digits
    have first : storedDigit? store 0 = some pin.digits[0] := digits 0
    have second : storedDigit? store 1 = some pin.digits[1] := digits 1
    have third : storedDigit? store 2 = some pin.digits[2] := digits 2
    have fourth : storedDigit? store 3 = some pin.digits[3] := digits 3
    rw [stored?, first, second, third, fourth]
    refine congrArg some (Pin.eq_of_digits fun place => ?_)
    match place with
    | 0 => rfl
    | 1 => rfl
    | 2 => rfl
    | 3 => rfl

/-- After so many of the changes that store a code, the digits of those are stored, and the other
ones are as before. -/
theorem stored?_spliced {before after : κ} {old new : Pin} {n : Nat}
    (stored : stored? before = some old)
    (made : KeyValueStore.contents after =
      ((changes new).take n).foldl Change.on (KeyValueStore.contents before)) :
    stored? after = some (Pin.spliced n new old) := by
  rw [stored?_eq_some_iff] at stored ⊢
  intro place
  have keyed : keys[place.val]? = some (key place) := by
    match place with
    | 0 => rfl
    | 1 => rfl
    | 2 => rfl
    | 3 => rfl
  have digit := KeyValueStore.find?_foldl_on_take (targets_changes new) (by decide) keyed
    (getElem?_changes new place) (KeyValueStore.contents before) n
  rw [storedDigit?_eq, made, digit, Pin.getElem_spliced]
  split
  · exact digit?_int _
  · rw [← storedDigit?_eq]
    exact stored place

/-- A new login code that is stored in a document up to the change that fails: the store itself
shows the digit of that change too, and the store opened again does not. -/
theorem stored?_setPrimary_document {store : DocumentStore} (settled : store.Settled)
    (ordered : store.held.Ordered) {codes : AccessCodes} {old : Pin}
    (stored : stored? store = some old) (pin : Pin) :
    let changed := (codes.setPrimary pin store).2.2
    let made := KeyValueStore.accepted (changes pin) store
    stored? changed = some (Pin.spliced (min 4 (made + 1)) pin old) ∧
      stored? changed.again = some (Pin.spliced made pin old) := by
  intro changed made
  have most : made ≤ 4 := length_changes pin ▸ KeyValueStore.accepted_le (changes pin) store
  have now := View.document.contents_applyAll ordered (changes pin)
  have later := View.reopened.contents_applyAll ⟨settled, ordered⟩ (changes pin)
  have held : KeyValueStore.contents (View.reopened.look store) = store.held := settled.held_again
  rw [held] at later
  refine ⟨?_, ?_⟩
  · have shown := stored?_spliced stored now
    rw [View.seen, length_changes] at shown
    exact shown
  · have shown := stored?_spliced stored later
    rw [View.seen, length_changes] at shown
    have all : min 4 (made + View.reopened.late.toNat) = made := Nat.min_eq_right most
    rw [all] at shown
    exact shown

/-- A new login code is in force whether it could be stored or not. What is loaded from the store
then is a code that begins with the digits of it that were stored and goes on with those of the
code before: the new code if all of them were. Where storing it failed, the code before is in
force and is loaded just if it is the new one. -/
theorem loadPrimary_setPrimary (view : View κ) {store : κ} (fit : view.Fit store)
    {codes : AccessCodes} (stored : stored? (view.look store) = some codes.primary) (pin : Pin) :
    let changed := codes.setPrimary pin store
    let later := view.look changed.2.2
    let shown := Pin.spliced (view.seen (changes pin) store) pin codes.primary
    changed.2.1.primary = pin ∧
      (∀ other : AccessCodes,
        other.loadPrimary later = (.ok (), { other with primary := shown }, later)) ∧
      (changed.1 = .ok () → shown = pin) ∧
      (changed.1 ≠ .ok () →
        (changed.2.1.primary = codes.primary ∧ shown = codes.primary ↔ pin = codes.primary)) := by
  intro changed later shown
  have loaded : stored? later = some shown :=
    stored?_spliced stored (view.contents_applyAll fit (changes pin))
  refine ⟨rfl, fun other => ?_, fun ok => ?_, fun _ => ⟨fun kept => kept.1, fun same => ?_⟩⟩
  · rw [loadPrimary, loaded]
  · have four : view.seen (changes pin) store = 4 := (view.seen_of_ok ok).trans (length_changes pin)
    have whole := Pin.spliced_four pin codes.primary
    rw [← four] at whole
    exact whole
  · have old : Pin.spliced (view.seen (changes pin) store) pin codes.primary = codes.primary := by
      rw [same, Pin.spliced_self]
    exact ⟨same, old⟩

/-- A code that is stored is loaded. -/
theorem loadPrimary_setPrimary_ok :
    let codes : AccessCodes := {}
    let pin := Pin.ofNats 9 9 8 8
    let store := (codes.setPrimary codes.primary ({} : MemoryStore)).2.2
    let changed := codes.setPrimary pin store
    stored? store = some codes.primary ∧ changed.1 = .ok () ∧
      codes.loadPrimary changed.2.2 = (.ok (), { codes with primary := pin }, changed.2.2) := by
  intro codes pin store changed
  have stored : stored? store = some codes.primary := by decide
  obtain ⟨_, loaded, whole, _⟩ := loadPrimary_setPrimary View.memory trivial stored pin
  have load := loaded codes
  rw [whole rfl] at load
  exact ⟨stored, rfl, load⟩

/-- Storing a code fails after two of its digits: the new code is in force, and a code that is
neither the old nor the new one is loaded. -/
theorem setPrimary_half_stored :
    let old := Pin.ofNats 1 1 2 2
    let new := Pin.ofNats 9 9 8 8
    let codes : AccessCodes := { primary := old }
    let store : MemoryStore := { (codes.setPrimary old ({} : MemoryStore)).2.2 with
      allowance := some 2 }
    let changed := codes.setPrimary new store
    (codes.loadPrimary store).2.1.primary = old ∧
      changed.1 = .error .io ∧
      changed.2.1.primary = new ∧
      (codes.loadPrimary changed.2.2).2.1.primary = Pin.ofNats 9 9 2 2 := by
  intro old new codes store changed
  exact ⟨by decide, rfl, rfl, by decide⟩

end AccessCodes

end Keyfob
