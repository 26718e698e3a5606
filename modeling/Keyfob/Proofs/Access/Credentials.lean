import Keyfob.Access.Credential
import Keyfob.Proofs.Store.Durability

/-!
# An update of the credentials that is interrupted

An update makes the same changes for every list, place by place (`Credential.replacement_eq`): the
name and the secret of a place are written if the list has the place and removed if not, and the
count is written last. So what is stored under each key after some of the changes is known from the
lists alone. Where an update fails, the list in memory stays, and the store has a name and a secret
at every place below its count unless the list got shorter and the update was cut between the first
removal and the count.
-/
namespace Keyfob

open KeyValueStore (Change View)

namespace Credential

/-- The change that writes a text under a key, or removes the key where there is none. -/
def write (key : Text) : Option Text → Change
  | some t => .set space key (.string t)
  | none => .remove space key

/-- The change of the name at a place. -/
def nameChange (list : List Credential) (place : Nat) : Change :=
  write (nameKey place) (list[place]?.map (·.name))

/-- The change of the secret at a place. -/
def secretChange (list : List Credential) (place : Nat) : Change :=
  write (secretKey place) (list[place]?.map (·.secret))

/-- The change of the count. -/
def countChange (list : List Credential) : Change :=
  .set space countKey (.int (Int64.ofNat list.length))

/-- The writes of the end of a list are the changes of its places. -/
theorem writes_eq {whole front rest : List Credential} (split : whole = front ++ rest) :
    writes front.length rest = ((List.range whole.length).drop front.length).flatMap fun place =>
      [nameChange whole place, secretChange whole place] := by
  induction rest generalizing front with
  | nil =>
    rw [List.append_nil] at split
    rw [split, List.drop_of_length_le (Nat.le_of_eq List.length_range)]
    rfl
  | cons credential rest ih =>
    have later : whole = (front ++ [credential]) ++ rest := by
      rw [split, List.append_assoc]
      rfl
    have here : whole[front.length]? = some credential := by
      rw [split, List.getElem?_append_right (Nat.le_refl _), Nat.sub_self]
      rfl
    have inside : front.length < (List.range whole.length).length := by
      rw [List.length_range, split, List.length_append, List.length_cons]
      omega
    have next := ih later
    rw [List.length_append, List.length_singleton] at next
    rw [List.drop_eq_getElem_cons inside, List.getElem_range, List.flatMap_cons, ← next]
    unfold nameChange secretChange
    rw [here]
    rfl

/-- A list that can be kept is stored by the changes of all places, and then that of the count. -/
theorem replacement_eq {list : List Credential} (short : list.length ≤ capacity) :
    replacement list = (List.range capacity).flatMap (fun place =>
      [nameChange list place, secretChange list place]) ++ [countChange list] := by
  have first : (List.range capacity).take list.length = List.range list.length := by
    rw [List.take_range, Nat.min_eq_left short]
  have places : List.range capacity =
      List.range list.length ++ (List.range capacity).drop list.length := by
    rw [← first]
    exact (List.take_append_drop list.length (List.range capacity)).symm
  have written : writes 0 list = (List.range list.length).flatMap fun place =>
      [nameChange list place, secretChange list place] := writes_eq (List.nil_append list).symm
  have removed : removals list.length = ((List.range capacity).drop list.length).flatMap
      fun place => [nameChange list place, secretChange list place] := by
    rw [removals, List.flatMap_def, List.flatMap_def]
    refine congrArg List.flatten (List.map_congr_left fun place listed => ?_)
    obtain ⟨more, inside, rfl⟩ := List.mem_drop_iff_getElem.mp listed
    rw [List.getElem_range]
    have past : list[list.length + more]? = none :=
      List.getElem?_eq_none (Nat.le_add_right _ _)
    unfold nameChange secretChange
    rw [past]
    rfl
  rw [places, List.flatMap_append, ← written, ← removed]
  rfl

/-- What is listed in pairs, one for each place, and then a last one. -/
theorem getElem?_places {α : Type} (first second : Nat → α) (last : α) {place : Nat}
    (inside : place < capacity) :
    let listed := (List.range capacity).flatMap (fun place => [first place, second place]) ++ [last]
    listed[2 * place]? = some (first place) ∧ listed[2 * place + 1]? = some (second place) ∧
      listed[20]? = some last := by
  have pairs (l : List Nat) (place : Nat) :
      (l.flatMap fun place => [first place, second place])[2 * place]? = l[place]?.map first ∧
        (l.flatMap fun place => [first place, second place])[2 * place + 1]? =
          l[place]?.map second := by
    induction l generalizing place with
    | nil => exact ⟨rfl, rfl⟩
    | cons x l ih =>
      cases place with
      | zero => exact ⟨rfl, rfl⟩
      | succ place => exact ih place
  have length :
      ((List.range capacity).flatMap fun place => [first place, second place]).length = 20 := rfl
  have here : (List.range capacity)[place]? = some place := List.getElem?_range inside
  have small : place < 10 := inside
  have pair := pairs (List.range capacity) place
  rw [here] at pair
  refine ⟨?_, ?_, rfl⟩
  · rw [List.getElem?_append_left (by omega)]
    exact pair.1
  · rw [List.getElem?_append_left (by omega)]
    exact pair.2

/-- The keys of the changes in order. -/
def keys : List Text :=
  (List.range capacity).flatMap (fun place => [nameKey place, secretKey place]) ++ [countKey]

/-- No key is that of two changes. -/
theorem nodup_keys : keys.Nodup := by decide

/-- Each change is about a key of its own. -/
theorem targets_replacement {list : List Credential} (short : list.length ≤ capacity) :
    (replacement list).map Change.target = keys.map fun key => (space, some key) := by
  have target (key : Text) (t : Option Text) : (write key t).target = (space, some key) := by
    cases t <;> rfl
  rw [replacement_eq short, keys, List.map_append, List.map_append, List.map_flatMap,
    List.map_flatMap]
  simp only [List.map_cons, List.map_nil, nameChange, secretChange, target]
  rfl

/-- There are 21 changes. -/
theorem length_replacement {list : List Credential} (short : list.length ≤ capacity) :
    (replacement list).length = 21 := by
  have same := congrArg List.length (targets_replacement short)
  rw [List.length_map, List.length_map] at same
  exact same

section Shown

variable {list : List Credential} {place : Nat}

/-- What is under a key when so many changes of an update are made. -/
theorem find?_replacement (short : list.length ≤ capacity) {key : Text} {change : Change}
    (keyed : keys[place]? = some key) (listed : (replacement list)[place]? = some change)
    (contents : Namespaces) (n : Nat) :
    (((replacement list).take n).foldl Change.on contents).find? space key =
      if place < n then change.left else contents.find? space key :=
  KeyValueStore.find?_foldl_on_take (targets_replacement short) nodup_keys keyed listed contents n

/-- The name at a place when so many changes of an update are made. -/
theorem find?_nameKey (short : list.length ≤ capacity) (inside : place < capacity)
    (contents : Namespaces) (n : Nat) :
    (((replacement list).take n).foldl Change.on contents).find? space (nameKey place) =
      if 2 * place < n then list[place]?.map fun credential => .string credential.name
      else contents.find? space (nameKey place) := by
  have keyed := (getElem?_places nameKey secretKey countKey inside).1
  have listed := (getElem?_places (nameChange list) (secretChange list) (countChange list)
    inside).1
  rw [← replacement_eq short] at listed
  rw [find?_replacement short keyed listed, nameChange]
  cases list[place]? <;> rfl

/-- The secret at a place when so many changes of an update are made. -/
theorem find?_secretKey (short : list.length ≤ capacity) (inside : place < capacity)
    (contents : Namespaces) (n : Nat) :
    (((replacement list).take n).foldl Change.on contents).find? space (secretKey place) =
      if 2 * place + 1 < n then list[place]?.map fun credential => .string credential.secret
      else contents.find? space (secretKey place) := by
  have keyed := (getElem?_places nameKey secretKey countKey inside).2.1
  have listed := (getElem?_places (nameChange list) (secretChange list) (countChange list)
    inside).2.1
  rw [← replacement_eq short] at listed
  rw [find?_replacement short keyed listed, secretChange]
  cases list[place]? <;> rfl

/-- The count when so many changes of an update are made. -/
theorem find?_countKey (short : list.length ≤ capacity) (contents : Namespaces) (n : Nat) :
    (((replacement list).take n).foldl Change.on contents).find? space countKey =
      if 20 < n then some (.int (Int64.ofNat list.length))
      else contents.find? space countKey := by
  have room : 0 < capacity := by decide
  have keyed := (getElem?_places nameKey secretKey countKey room).2.2
  have listed := (getElem?_places (nameChange list) (secretChange list) (countChange list)
    room).2.2
  rw [← replacement_eq short] at listed
  exact find?_replacement short keyed listed contents n

end Shown

end Credential

namespace Credentials

variable {κ : Type} [KeyValueStore κ]

/-- There are a name and a secret at a place. -/
def Present (store : κ) (place : Nat) : Prop :=
  (KeyValueStore.get? store Credential.space (Credential.nameKey place)).isSome = true ∧
    (KeyValueStore.get? store Credential.space (Credential.secretKey place)).isSome = true

/-- There are a name and a secret at every place below the count. -/
def Complete (store : κ) : Prop := ∀ place < storedCount store, Present store place

/-- A list that can be kept is what is stored. -/
structure Stores (store : κ) (list : List Credential) : Prop where
  /-- The list can be kept. -/
  short : list.length ≤ Credential.capacity
  /-- The count is the length of the list. -/
  count : KeyValueStore.get? store Credential.space Credential.countKey =
    some (.int (Int64.ofNat list.length))
  /-- The names are those of the list. -/
  name : ∀ place < Credential.capacity,
    KeyValueStore.get? store Credential.space (Credential.nameKey place) =
      list[place]?.map fun credential => .string credential.name
  /-- The secrets are those of the list. -/
  secret : ∀ place < Credential.capacity,
    KeyValueStore.get? store Credential.space (Credential.secretKey place) =
      list[place]?.map fun credential => .string credential.secret

/-- A count that can be kept is read back. -/
theorem storedCount_of_get? {store : κ} {n : Nat} (short : n ≤ Credential.capacity)
    (count : KeyValueStore.get? store Credential.space Credential.countKey =
      some (.int (Int64.ofNat n))) : storedCount store = n := by
  have back : ∀ n < 11, (Text.clamp 0 10 (Int64.ofNat n).toInt).toNat = n := by decide
  unfold storedCount KeyValueStore.getInt?
  rw [count]
  exact back n (Nat.lt_succ_of_le short)

/-- No more of a list is taken than can be kept. -/
theorem length_take_le (list : List Credential) :
    (list.take Credential.capacity).length ≤ Credential.capacity := by
  rw [List.length_take]
  exact Nat.min_le_left _ _

/-- The list in memory changes when everything is stored, and else stays. -/
theorem replaceAll_eq (credentials : Credentials) (list : List Credential) (store : κ) :
    let made := KeyValueStore.applyAll
      (Credential.replacement (list.take Credential.capacity)) store
    credentials.replaceAll list store =
      (made.1, if made.1.isOk then ⟨list.take Credential.capacity⟩ else credentials, made.2) := by
  intro made
  rw [replaceAll]
  split
  · next after outcome =>
    have same : made = (.ok (), after) := outcome
    rw [same]
    rfl
  · next e after outcome =>
    have same : made = (.error e, after) := outcome
    rw [same]
    rfl

/-- An update that succeeds stores its list and holds it in memory. -/
theorem stores_of_replaceAll (view : View κ) {earlier between : κ} (fit : view.Fit earlier)
    {before credentials : Credentials} {list : List Credential}
    (replaced : before.replaceAll list earlier = (.ok (), credentials, between)) :
    credentials.list = list.take Credential.capacity ∧
      Stores (view.look between) (list.take Credential.capacity) := by
  have short := length_take_le list
  rw [replaceAll_eq] at replaced
  simp only [Prod.mk.injEq] at replaced
  obtain ⟨ok, held, rfl⟩ := replaced
  rw [ok] at held
  have whole : view.seen (Credential.replacement (list.take Credential.capacity)) earlier = 21 :=
    (view.seen_of_ok ok).trans (Credential.length_replacement short)
  have shown := view.contents_applyAll fit (Credential.replacement (list.take Credential.capacity))
  rw [whole] at shown
  refine ⟨held ▸ rfl, short, ?_, fun place inside => ?_, fun place inside => ?_⟩
  · rw [KeyValueStore.get?, shown, Credential.find?_countKey short]
    rfl
  · have small : place < 10 := inside
    rw [KeyValueStore.get?, shown, Credential.find?_nameKey short inside, if_pos (by omega)]
  · have small : place < 10 := inside
    rw [KeyValueStore.get?, shown, Credential.find?_secretKey short inside, if_pos (by omega)]

/-- What is stored when so many changes of an update were made on a list that was stored: the count
of the new list if all were made, and the name and the secret of a place if the list has it that
is written there. -/
theorem present_of_stores {before after : κ} {old new : List Credential} {n : Nat}
    (stores : Stores before old) (short : new.length ≤ Credential.capacity)
    (made : KeyValueStore.contents after =
      ((Credential.replacement new).take n).foldl Change.on (KeyValueStore.contents before)) :
    storedCount after = (if 20 < n then new.length else old.length) ∧
      ∀ place < Credential.capacity, (Present after place ↔
        place < (if 2 * place < n then new.length else old.length) ∧
          place < (if 2 * place + 1 < n then new.length else old.length)) := by
  have listed (place : Nat) (field : Credential → StoreValue) (c : Prop) [Decidable c] :
      (if c then new[place]?.map field else old[place]?.map field).isSome = true ↔
        place < if c then new.length else old.length := by
    split <;> simp
  refine ⟨?_, fun place inside => and_congr ?_ ?_⟩
  · have count : KeyValueStore.get? after Credential.space Credential.countKey =
        some (.int (Int64.ofNat (if 20 < n then new.length else old.length))) := by
      rw [KeyValueStore.get?, made, Credential.find?_countKey short]
      split
      · rfl
      · exact stores.count
    refine storedCount_of_get? ?_ count
    split
    · exact short
    · exact stores.short
  · have name : (KeyValueStore.contents before).find? Credential.space
        (Credential.nameKey place) = _ := stores.name place inside
    rw [KeyValueStore.get?, made, Credential.find?_nameKey short inside, name]
    exact listed place _ _
  · have secret : (KeyValueStore.contents before).find? Credential.space
        (Credential.secretKey place) = _ := stores.secret place inside
    rw [KeyValueStore.get?, made, Credential.find?_secretKey short inside, secret]
    exact listed place _ _

/-- Of an update of so many places from so many, every place below the count is there after so many
of the changes just where no place is given up, or none was removed yet, or all changes are made. -/
theorem written_iff {old new n : Nat} (short : new ≤ 10) (most : n ≤ 21) :
    (∀ place < (if 20 < n then new else old), place < (if 2 * place < n then new else old) ∧
      place < (if 2 * place + 1 < n then new else old)) ↔ old ≤ new ∨ n ≤ 2 * new ∨ n = 21 := by
  constructor
  · intro there
    -- The place after the new ones is below the old count, and its name is the first removed.
    by_cases gap : new < old ∧ 2 * new < n ∧ n ≠ 21
    · obtain ⟨shorter, removed, cut⟩ := gap
      have below : new < if 20 < n then new else old := by
        rw [if_neg (by omega)]
        exact shorter
      have name := (there new below).1
      rw [if_pos removed] at name
      exact absurd name (Nat.lt_irrefl new)
    · omega
  · intro safe place below
    split at below
    · rw [if_pos (by omega), if_pos (by omega)]
      exact ⟨below, below⟩
    · constructor <;> split <;> omega

/-- After a list was stored, an update that fails leaves the list in memory as it was. The store has
a name and a secret at every place below its count just where the new list is no shorter, or no
change of the update that is seen removes anything, or all of them are seen. -/
theorem complete_of_failed_replaceAll (view : View κ) {earlier between store : κ}
    (fitEarlier : view.Fit earlier) (fit : view.Fit store) {before credentials : Credentials}
    {list other : List Credential}
    (replaced : before.replaceAll list earlier = (.ok (), credentials, between))
    (untouched : ∀ key, KeyValueStore.get? (view.look store) Credential.space key =
      KeyValueStore.get? (view.look between) Credential.space key)
    (failed : (credentials.replaceAll other store).1 ≠ .ok ()) :
    let kept := list.take Credential.capacity
    let next := other.take Credential.capacity
    let changed := credentials.replaceAll other store
    let seen := view.seen (Credential.replacement next) store
    changed.2.1.list = kept ∧
      (Complete (view.look changed.2.2) ↔
        kept.length ≤ next.length ∨ seen ≤ 2 * next.length ∨ seen = 21) := by
  intro kept next changed seen
  obtain ⟨inMemory, storedBetween⟩ := stores_of_replaceAll view fitEarlier replaced
  have short := length_take_le other
  have stored : Stores (view.look store) kept :=
    { short := storedBetween.short
      count := (untouched _).trans storedBetween.count
      name := fun place inside => (untouched _).trans (storedBetween.name place inside)
      secret := fun place inside => (untouched _).trans (storedBetween.secret place inside) }
  have whole := replaceAll_eq credentials other store
  have notOk : (KeyValueStore.applyAll (Credential.replacement next) store).1.isOk = false := by
    rw [whole] at failed
    cases result : (KeyValueStore.applyAll (Credential.replacement next) store).1 with
    | ok _ => exact absurd result failed
    | error e => rfl
  have unchanged : changed.2.1 = credentials := by
    rw [show changed = credentials.replaceAll other store from rfl, whole]
    exact if_neg (ne_true_of_eq_false notOk)
  have later : changed.2.2 = (KeyValueStore.applyAll (Credential.replacement next) store).2 :=
    congrArg (·.2.2) whole
  have shown := view.contents_applyAll fit (Credential.replacement next)
  have most : seen ≤ 21 :=
    Nat.le_trans (view.seen_le _ store) (Nat.le_of_eq (Credential.length_replacement short))
  obtain ⟨count, present⟩ := present_of_stores stored short shown
  refine ⟨by rw [unchanged, inMemory], ?_⟩
  rw [later, Complete, count, ← written_iff short most]
  refine forall₂_congr fun place below => present place ?_
  refine Nat.lt_of_lt_of_le below ?_
  split
  · exact short
  · exact stored.short

/-- A list of two credentials is replaced by one of another, and the store fails at the first
removal: the name at the second place is still there. -/
theorem complete_of_failed_replaceAll_early :
    let list : List Credential := [⟨"A", "1"⟩, ⟨"B", "2"⟩]
    let other : List Credential := [⟨"C", "3"⟩]
    let replaced := ({} : Credentials).replaceAll list ({} : MemoryStore)
    let store : MemoryStore := { replaced.2.2 with allowance := some 2 }
    let changed := replaced.2.1.replaceAll other store
    replaced.1 = .ok () ∧ changed.1 ≠ .ok () ∧ changed.2.1.list = list ∧ Complete changed.2.2 := by
  intro list other replaced store changed
  have stored : ({} : Credentials).replaceAll list ({} : MemoryStore) =
      (.ok (), replaced.2.1, replaced.2.2) := rfl
  have failed : (replaced.2.1.replaceAll other store).1 ≠ .ok () := nofun
  have untouched (key : Text) : KeyValueStore.get? (View.memory.look store) Credential.space key =
      KeyValueStore.get? (View.memory.look replaced.2.2) Credential.space key := rfl
  obtain ⟨held, complete⟩ := complete_of_failed_replaceAll View.memory trivial trivial stored
    untouched failed
  have early : View.memory.seen (Credential.replacement (other.take Credential.capacity)) store ≤
      2 * (other.take Credential.capacity).length := by
    rw [View.seen, KeyValueStore.accepted_memory]
    decide
  exact ⟨rfl, failed, held, complete.mpr (.inr (.inl early))⟩

/-- A list of two credentials is replaced by one of another, and the store fails after the first
removal: the count is two, and the second place has no name. -/
theorem not_complete_of_failed_replaceAll :
    let list : List Credential := [⟨"A", "1"⟩, ⟨"B", "2"⟩]
    let other : List Credential := [⟨"C", "3"⟩]
    let replaced := ({} : Credentials).replaceAll list ({} : MemoryStore)
    let store : MemoryStore := { replaced.2.2 with allowance := some 3 }
    let changed := replaced.2.1.replaceAll other store
    replaced.1 = .ok () ∧ changed.1 ≠ .ok () ∧ changed.2.1.list = list ∧
      storedCount changed.2.2 = 2 ∧
      KeyValueStore.get? changed.2.2 Credential.space (Credential.nameKey 1) = none := by
  intro list other replaced store changed
  exact ⟨rfl, nofun, by decide, by decide, by decide⟩

end Credentials

end Keyfob
