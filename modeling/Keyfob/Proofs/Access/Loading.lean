import Keyfob.Proofs.Access.Credentials

/-!
# What is loaded after an update

An update that succeeds makes 21 changes, one for the name and one for the secret of each place and
one for the count (`Credential.keys`), whatever was there before. So what is loaded afterwards is
the list that is held in memory, nothing is left at the places past it, and everything under other
keys and in other namespaces is as it was (`Credentials.load_of_replaced`).
-/
namespace Keyfob

open KeyValueStore (Change View)

namespace Credential

variable {list : List Credential}

/-- Every change of an update is about one of its keys. -/
theorem target_of_mem_replacement (short : list.length ≤ capacity) {change : Change}
    (listed : change ∈ replacement list) : ∃ key ∈ keys, change.target = (space, some key) := by
  have target := List.mem_map_of_mem (f := Change.target) listed
  rw [targets_replacement short] at target
  obtain ⟨key, among, same⟩ := List.mem_map.mp target
  exact ⟨key, among, same.symm⟩

/-- The changes of an update leave every other key as it was. -/
theorem find?_replacement_of_notMem (short : list.length ≤ capacity) {key : Text}
    (other : key ∉ keys) (contents : Namespaces) :
    ((replacement list).foldl Change.on contents).find? space key = contents.find? space key := by
  refine KeyValueStore.find?_foldl_on (fun change listed => ?_) contents
  obtain ⟨name, among, target⟩ := target_of_mem_replacement short listed
  rw [Change.touches_of_target target, decide_eq_false_iff_not]
  rintro rfl
  exact other among

/-- The changes of an update leave every other namespace as it was. -/
theorem get?_replacement (short : list.length ≤ capacity) {other : Text} (apart : other ≠ space)
    (contents : Namespaces) :
    ((replacement list).foldl Change.on contents).get? other = contents.get? other := by
  refine KeyValueStore.get?_foldl_on (fun change listed => ?_) contents
  obtain ⟨name, -, target⟩ := target_of_mem_replacement short listed
  rw [target]
  exact apart.symm

end Credential

namespace Credentials

variable {κ : Type} [KeyValueStore κ]

/-- A list that is stored is loaded. -/
theorem load_of_stores {store : κ} {list : List Credential} (stores : Stores store list) :
    load store = ⟨list⟩ := by
  have count := storedCount_of_get? stores.short stores.count
  rw [load, count, mk.injEq]
  refine List.ext_getElem? fun place => ?_
  rw [List.getElem?_map]
  by_cases inside : place < list.length
  · have here : list[place]? = some list[place] := List.getElem?_eq_getElem inside
    have room := Nat.lt_of_lt_of_le inside stores.short
    have name := stores.name place room
    have secret := stores.secret place room
    rw [here, Option.map_some] at name secret
    rw [List.getElem?_range inside, here, Option.map_some, storedAt]
    simp only [KeyValueStore.getString?, name, secret, Option.getD_some]
  · have past := Nat.le_of_not_lt inside
    rw [List.getElem?_eq_none past, List.getElem?_eq_none (by rwa [List.length_range])]
    rfl

/-- An update that succeeds leaves the other keys and namespaces as they were. -/
theorem others_of_replaceAll (view : View κ) {store stored : κ} (fit : view.Fit store)
    {before after : Credentials} {list : List Credential}
    (replaced : before.replaceAll list store = (.ok (), after, stored)) :
    (∀ key ∉ Credential.keys,
      KeyValueStore.get? (view.look stored) Credential.space key =
        KeyValueStore.get? (view.look store) Credential.space key) ∧
      ∀ other ≠ Credential.space,
        (KeyValueStore.contents (view.look stored)).get? other =
          (KeyValueStore.contents (view.look store)).get? other := by
  have short := length_take_le list
  rw [replaceAll_eq] at replaced
  simp only [Prod.mk.injEq] at replaced
  obtain ⟨ok, -, rfl⟩ := replaced
  have shown := view.contents_applyAll fit (Credential.replacement (list.take Credential.capacity))
  rw [view.seen_of_ok ok, List.take_length] at shown
  refine ⟨fun key other => ?_, fun other apart => ?_⟩
  · rw [KeyValueStore.get?, shown]
    exact Credential.find?_replacement_of_notMem short other _
  · rw [shown]
    exact Credential.get?_replacement short apart _

/-- After an update that succeeds, whatever was stored before: what is loaded is what is held in
memory, and that is as much of the given list as can be kept. No name and no secret is left at a
place past it, and every other key of the namespace and every other namespace is as it was. -/
theorem load_of_replaced (view : View κ) {store stored : κ} (fit : view.Fit store)
    {before after : Credentials} {list : List Credential}
    (replaced : before.replaceAll list store = (.ok (), after, stored)) :
    after.list = list.take 10 ∧ load (view.look stored) = after ∧
      (∀ place, after.list.length ≤ place → place < 10 →
        KeyValueStore.get? (view.look stored) Credential.space (Credential.nameKey place) = none ∧
          KeyValueStore.get? (view.look stored) Credential.space (Credential.secretKey place) =
            none) ∧
      (∀ key ∉ Credential.keys,
        KeyValueStore.get? (view.look stored) Credential.space key =
          KeyValueStore.get? (view.look store) Credential.space key) ∧
      ∀ other ≠ Credential.space,
        (KeyValueStore.contents (view.look stored)).get? other =
          (KeyValueStore.contents (view.look store)).get? other := by
  obtain ⟨held, stores⟩ := stores_of_replaceAll view fit replaced
  have same : (⟨list.take Credential.capacity⟩ : Credentials) = after := by rw [← held]
  refine ⟨held, (load_of_stores stores).trans same, fun place past inside => ?_,
    others_of_replaceAll view fit replaced⟩
  have gone : (list.take Credential.capacity)[place]? = none := by
    rw [← held]
    exact List.getElem?_eq_none past
  have name := stores.name place inside
  have secret := stores.secret place inside
  rw [gone, Option.map_none] at name secret
  exact ⟨name, secret⟩

/-- A store with a count that is no number, a secret that is none, a name at a place without a
secret, a key of another kind and another namespace. -/
def strayStore : MemoryStore where
  held := ((((((∅ : Namespaces).put "devstore" "count" (.string "many")).put "devstore" "password_9"
    (.int 3)).put "devstore" "device_5" (.string "old")).put "devstore" "device_10"
    (.string "spare")).put "security" "pin_0" (.int 7))

/-- An update of one credential on it. -/
theorem load_of_replaced_stray :
    let list : List Credential := [⟨"A", "1"⟩]
    let changed := ({} : Credentials).replaceAll list strayStore
    changed.1 = .ok () ∧ load changed.2.2 = ⟨list⟩ ∧
      KeyValueStore.get? changed.2.2 Credential.space (Credential.nameKey 5) = none ∧
      KeyValueStore.get? changed.2.2 Credential.space (Credential.secretKey 9) = none ∧
      KeyValueStore.get? changed.2.2 Credential.space (Credential.nameKey 10) =
        some (.string "spare") := by
  intro list changed
  have replaced : ({} : Credentials).replaceAll list strayStore =
      (.ok (), changed.2.1, changed.2.2) := rfl
  obtain ⟨held, loaded, gone, kept, -⟩ := load_of_replaced View.memory trivial replaced
  have room : changed.2.1.list.length ≤ 5 := by decide
  refine ⟨rfl, loaded, (gone 5 room (by decide)).1, (gone 9 (by omega) (by decide)).2, ?_⟩
  have other : Credential.nameKey 10 ∉ Credential.keys := by decide
  exact (kept _ other).trans rfl

end Credentials

end Keyfob
