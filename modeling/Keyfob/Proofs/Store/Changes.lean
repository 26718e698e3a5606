import Keyfob.Proofs.Store.Framed
import Keyfob.Proofs.Store.Ordered

/-!
# Changes that are made one by one

Changes of a store are made in order, up to the first that fails. What a store then shows is what
it showed before with some of the changes made: those that were accepted, and one more where a
change that fails is made in memory (`KeyValueStore.View.contents_applyAll`). A `View` is one way
to look at a store, as it is or as it will be when it is opened again. Where each change is about a
key of its own, a key has its old value before its change and its new value from there on
(`KeyValueStore.find?_foldl_on_take`).
-/
namespace Keyfob

namespace KeyValueStore

/-! ## One change -/

/-- The contents after a change. -/
def Change.on (contents : Namespaces) : Change → Namespaces
  | .set space key value => contents.put space key value
  | .remove space key => contents.remove space key
  | .clear space => contents.clear space

/-- Whether a change decides what is under a key. -/
def Change.touches (space key : Text) : Change → Bool
  | .set home name _ => home = space ∧ name = key
  | .remove home name => home = space ∧ name = key
  | .clear home => home = space

/-- The namespace that a change is about, and the key if it is about one only. -/
def Change.target : Change → Text × Option Text
  | .set home name _ => (home, some name)
  | .remove home name => (home, some name)
  | .clear home => (home, none)

/-- What a change leaves under the keys that it touches. -/
def Change.left : Change → Option StoreValue
  | .set _ _ value => some value
  | .remove _ _ => none
  | .clear _ => none

/-- Whether a change of some contents makes a document of them be written anew. -/
def Change.rewrites (contents : Namespaces) : Change → Bool
  | .set _ _ _ => true
  | .remove space key => (contents.find? space key).isSome
  | .clear space => contents.holds space

/-- What is under a key after a change. -/
theorem Change.find?_on (contents : Namespaces) (space key : Text) (change : Change) :
    (change.on contents).find? space key =
      if change.touches space key then change.left else contents.find? space key := by
  cases change with
  | set home name value =>
    rw [on, touches, left, Namespaces.find?, Namespaces.put, Table.get?_insert]
    by_cases here : home = space
    · subst here
      rw [if_pos rfl, Option.bind_some, Table.get?_insert]
      by_cases same : name = key
      · simp only [same, and_self, decide_true, if_true]
      · simp only [same, and_false, decide_false, Bool.false_eq_true, if_false, Namespaces.find?]
        cases contents.get? home <;> rfl
    · simp only [here, false_and, decide_false, Bool.false_eq_true, if_false, Namespaces.find?]
  | remove home name =>
    rw [on, touches, left, Namespaces.remove]
    by_cases here : home = space
    · subst here
      cases inside : contents.get? home with
      | none => simp only [Namespaces.find?, inside, Option.bind_none, ite_self]
      | some entries =>
        simp only [Namespaces.find?, inside, Table.get?_insert, if_true, Option.bind_some,
          Table.get?_erase, true_and, decide_eq_true_eq]
    · simp only [here, false_and, decide_false, Bool.false_eq_true, if_false]
      split
      · rfl
      · rw [Namespaces.find?, Table.get?_insert, if_neg here, Namespaces.find?]
  | clear home =>
    rw [on, touches, left, Namespaces.find?, Namespaces.clear, Table.get?_erase]
    by_cases here : home = space
    · simp only [here, decide_true, if_true, Option.bind_none]
    · simp only [here, decide_false, Bool.false_eq_true, if_false, Namespaces.find?]

/-- A change leaves every namespace as it is that it is not about. -/
theorem Change.get?_on {change : Change} {space : Text} (other : change.target.1 ≠ space)
    (contents : Namespaces) : (change.on contents).get? space = contents.get? space := by
  cases change with
  | set home name value =>
    rw [on, Namespaces.put, Table.get?_insert]
    exact if_neg other
  | remove home name =>
    rw [on, Namespaces.remove]
    split
    · rfl
    · rw [Table.get?_insert]
      exact if_neg other
  | clear home =>
    rw [on, Namespaces.clear, Table.get?_erase]
    exact if_neg other

/-- A change of one key touches no other. -/
theorem Change.touches_of_target {change : Change} {space name key : Text}
    (about : change.target = (space, some name)) :
    change.touches space key = decide (name = key) := by
  cases change with
  | set home _ value =>
    cases about
    exact decide_eq_decide.mpr (and_iff_right rfl)
  | remove home _ =>
    cases about
    exact decide_eq_decide.mpr (and_iff_right rfl)
  | clear home => cases about

/-- A change keeps contents in order. -/
theorem Change.ordered_on {contents : Namespaces} (ordered : contents.Ordered)
    (change : Change) : (change.on contents).Ordered :=
  match change with
  | .set space key value => ordered.put space key value
  | .remove space key => ordered.remove space key
  | .clear space => ordered.clear space

/-- A change that does not make a document be written leaves the contents as they are. -/
theorem Change.on_of_not_rewrites {contents : Namespaces} (ordered : contents.Ordered)
    {change : Change} (idle : change.rewrites contents = false) :
    change.on contents = contents := by
  cases change with
  | set space key value => cases idle
  | remove space key =>
    have missing : contents.find? space key = none :=
      Option.isNone_iff_eq_none.mp (Option.isSome_eq_false_iff.mp idle)
    rw [on, Namespaces.remove]
    split
    · rfl
    · next entries found =>
      rw [Namespaces.find?, found, Option.bind_some] at missing
      rw [Table.erase_of_get? missing, Table.insert_of_get? ordered.outer found]
  | clear space =>
    exact Table.erase_of_get? (Option.isNone_iff_eq_none.mp (Option.isSome_eq_false_iff.mp idle))

end KeyValueStore

/-- A change of the store in memory is made if a further change is accepted. -/
theorem MemoryStore.apply_eq (store : MemoryStore) (change : KeyValueStore.Change) :
    KeyValueStore.apply store change = store.change change.on := by
  cases change <;> rfl

/-- A store in memory whose changes are all accepted makes one after another. -/
theorem MemoryStore.applyAll_unlimited (changes : List KeyValueStore.Change) (held : Namespaces) :
    KeyValueStore.applyAll changes ({ held := held } : MemoryStore) =
      (.ok (), { held := changes.foldl KeyValueStore.Change.on held }) := by
  induction changes generalizing held with
  | nil => rfl
  | cons change changes ih =>
    have made : KeyValueStore.apply ({ held := held } : MemoryStore) change =
        (.ok (), { held := change.on held }) := by
      rw [MemoryStore.apply_eq]
      rfl
    rw [KeyValueStore.applyAll, made]
    exact ih (change.on held)

/-- A change of the store in a document that makes no difference is accepted as it is; any other
is made, and then the document is written. -/
theorem DocumentStore.apply_eq (store : DocumentStore) (change : KeyValueStore.Change) :
    KeyValueStore.apply store change =
      if change.rewrites store.held then store.change change.on else (.ok (), store) := by
  cases change <;> rfl

namespace KeyValueStore

/-! ## Changes in order -/

/-- What is under a key that no change touches stays. -/
theorem find?_foldl_on {changes : List Change} {space key : Text}
    (untouched : ∀ change ∈ changes, change.touches space key = false) (contents : Namespaces) :
    (changes.foldl Change.on contents).find? space key = contents.find? space key := by
  induction changes generalizing contents with
  | nil => rfl
  | cons change changes ih =>
    rw [List.foldl_cons, ih fun later listed => untouched later (List.mem_cons_of_mem _ listed),
      Change.find?_on, untouched change List.mem_cons_self, if_neg Bool.false_ne_true]

/-- A namespace stays that no change is about. -/
theorem get?_foldl_on {changes : List Change} {space : Text}
    (others : ∀ change ∈ changes, change.target.1 ≠ space) (contents : Namespaces) :
    (changes.foldl Change.on contents).get? space = contents.get? space := by
  induction changes generalizing contents with
  | nil => rfl
  | cons change changes ih =>
    obtain ⟨first, later⟩ := List.forall_mem_cons.mp others
    rw [List.foldl_cons, ih later, Change.get?_on first]

/-- When the first of some changes are made, each about a key of its own, a key is as its change
leaves it if that is among them, and as it was if not. -/
theorem find?_foldl_on_take {changes : List Change} {space : Text} {keys : List Text}
    (targets : changes.map Change.target = keys.map fun key => (space, some key))
    (distinct : keys.Nodup) {place : Nat} {key : Text} {change : Change}
    (keyed : keys[place]? = some key) (listed : changes[place]? = some change)
    (contents : Namespaces) (n : Nat) :
    ((changes.take n).foldl Change.on contents).find? space key =
      if place < n then change.left else contents.find? space key := by
  induction changes generalizing keys place contents n with
  | nil => cases listed
  | cons first changes ih =>
    cases keys with
    | nil => cases keyed
    | cons name keys =>
      obtain ⟨about, others⟩ := List.cons.inj targets
      obtain ⟨apart, rest⟩ := List.nodup_cons.mp distinct
      cases n with
      | zero => rfl
      | succ n =>
        rw [List.take_succ_cons, List.foldl_cons]
        cases place with
        | zero =>
          cases keyed
          cases listed
          -- No later change is about this key, so what the first one leaves stays.
          have untouched : ∀ later ∈ changes.take n, later.touches space key = false := by
            intro later among
            have target := List.mem_map_of_mem (f := Change.target) (List.mem_of_mem_take among)
            rw [others] at target
            obtain ⟨other, inKeys, same⟩ := List.mem_map.mp target
            rw [Change.touches_of_target same.symm, decide_eq_false_iff_not]
            rintro rfl
            exact apart inKeys
          rw [find?_foldl_on untouched, Change.find?_on, Change.touches_of_target about,
            decide_eq_true rfl, if_pos rfl, if_pos (Nat.succ_pos n)]
        | succ place =>
          have inKeys : key ∈ keys := List.mem_of_getElem? keyed
          have untouched : first.touches space key = false := by
            rw [Change.touches_of_target about, decide_eq_false_iff_not]
            rintro rfl
            exact apart inKeys
          rw [ih others rest keyed listed, Change.find?_on, untouched, if_neg Bool.false_ne_true]
          simp only [Nat.add_lt_add_iff_right]

variable {κ : Type} [KeyValueStore κ]

/-- How many changes are accepted before one fails. -/
def accepted : List Change → κ → Nat
  | [], _ => 0
  | change :: changes, store =>
    match apply store change with
    | (.ok (), store) => accepted changes store + 1
    | (.error _, _) => 0

/-- No more changes are accepted than there are. -/
theorem accepted_le (changes : List Change) (store : κ) :
    accepted changes store ≤ changes.length := by
  induction changes generalizing store with
  | nil => exact Nat.le_refl 0
  | cons change changes ih =>
    rw [accepted]
    split
    · exact Nat.succ_le_succ (ih _)
    · exact Nat.zero_le _

/-- Changes are made without failure just where all of them are accepted. -/
theorem ok_iff_accepted (changes : List Change) (store : κ) :
    (applyAll changes store).1 = .ok () ↔ accepted changes store = changes.length := by
  induction changes generalizing store with
  | nil => exact iff_of_true rfl rfl
  | cons change changes ih =>
    rw [applyAll, accepted, List.length_cons]
    cases outcome : apply store change with
    | mk result after =>
      cases result with
      | ok _ =>
        simp only
        rw [ih, Nat.add_right_cancel_iff]
      | error e => exact iff_of_false nofun (Nat.succ_ne_zero _).symm

/-- A store in memory accepts as many changes as its allowance says, so changes can be cut at any
place. -/
theorem accepted_memory (changes : List Change) (held : Namespaces) (n : Nat) :
    accepted changes ({ held := held, allowance := some n } : MemoryStore) =
      min n changes.length := by
  induction changes generalizing held n with
  | nil => exact (Nat.min_zero n).symm
  | cons change changes ih =>
    cases n with
    | zero =>
      rw [accepted, MemoryStore.apply_eq]
      exact (Nat.zero_min _).symm
    | succ n =>
      rw [accepted, MemoryStore.apply_eq, List.length_cons, Nat.succ_min_succ, ← ih]
      rfl

/-- No change of a store fails, nor any after it. -/
def Unfailing (store : κ) : Prop := ∀ changes, (applyAll changes store).1 = .ok ()

/-- No change fails in a store in memory without a limit. -/
theorem unfailing_memory {store : MemoryStore} (unlimited : store.allowance = none) :
    Unfailing store := by
  obtain ⟨held, _⟩ := store
  cases unlimited
  intro changes
  rw [MemoryStore.applyAll_unlimited]

/-- No change fails in a store whose document can be written without a limit. -/
theorem unfailing_document {store : DocumentStore} (unlimited : store.allowance = none) :
    Unfailing store := by
  intro changes
  induction changes generalizing store with
  | nil => rfl
  | cons change changes ih =>
    rw [applyAll, DocumentStore.apply_eq]
    cases change.rewrites store.held with
    | true =>
      rw [if_pos rfl, DocumentStore.change, DocumentStore.commit, unlimited]
      exact ih rfl
    | false => exact ih unlimited

/-! ## Looking at a store -/

/-- A way to look at a store, with what a change does to what is seen. -/
structure View (κ : Type) [KeyValueStore κ] where
  /-- The store that is seen. -/
  look : κ → κ
  /-- The stores that can be looked at. -/
  Fit : κ → Prop
  /-- Whether a change that fails is seen nevertheless. -/
  late : Bool
  /-- A change that is accepted is seen, and the store can still be looked at. -/
  made : ∀ {store after : κ} {change : Change}, Fit store → apply store change = (.ok (), after) →
    Fit after ∧ contents (look after) = change.on (contents (look store))
  /-- A change that fails is seen or not. -/
  failed : ∀ {store after : κ} {change : Change} {e : StoreError}, Fit store →
    apply store change = (.error e, after) →
      contents (look after) =
        if late then change.on (contents (look store)) else contents (look store)

namespace View

variable (view : View κ)

/-- How many of some changes are seen. -/
def seen (changes : List Change) (store : κ) : Nat :=
  min changes.length (accepted changes store + view.late.toNat)

/-- No more changes are seen than there are. -/
theorem seen_le (changes : List Change) (store : κ) : view.seen changes store ≤ changes.length :=
  Nat.min_le_left _ _

/-- All of some changes are seen where none fails. -/
theorem seen_of_ok {changes : List Change} {store : κ}
    (ok : (applyAll changes store).1 = .ok ()) : view.seen changes store = changes.length := by
  rw [seen, (ok_iff_accepted changes store).mp ok]
  exact Nat.min_eq_left (Nat.le_add_right _ _)

/-- What is seen of a store after changes that may fail. -/
theorem contents_applyAll {store : κ} (fit : view.Fit store) (changes : List Change) :
    contents (view.look (applyAll changes store).2) =
      (changes.take (view.seen changes store)).foldl Change.on (contents (view.look store)) := by
  unfold seen
  induction changes generalizing store with
  | nil => rfl
  | cons change changes ih =>
    rw [applyAll, accepted, List.length_cons]
    cases outcome : apply store change with
    | mk result after =>
      cases result with
      | ok _ =>
        obtain ⟨fitAfter, shown⟩ := view.made fit outcome
        have more : min (changes.length + 1) (accepted changes after + 1 + view.late.toNat) =
            min changes.length (accepted changes after + view.late.toNat) + 1 := by omega
        simp only
        rw [more, List.take_succ_cons, List.foldl_cons, ← shown, ih fitAfter]
      | error e =>
        simp only
        rw [view.failed fit outcome]
        cases view.late with
        | false => rfl
        | true =>
          have one : min (changes.length + 1) (0 + true.toNat) = 1 := by
            rw [Bool.toNat_true]
            omega
          rw [one]
          rfl

/-- A store in memory as it is: a change that fails is not made. -/
def memory : View MemoryStore where
  look := id
  Fit _ := True
  late := false
  made {store after change} _ outcome := by
    rw [MemoryStore.apply_eq, MemoryStore.change] at outcome
    split at outcome
    · cases outcome
    · cases outcome
      exact ⟨trivial, rfl⟩
  failed {store after change e} _ outcome := by
    rw [MemoryStore.apply_eq, MemoryStore.change] at outcome
    split at outcome
    · cases outcome
      rfl
    · cases outcome

/-- A store in a document as it is: a change that fails is made nevertheless. -/
def document : View DocumentStore where
  look := id
  Fit store := store.held.Ordered
  late := true
  made {store after change} ordered outcome := by
    rw [DocumentStore.apply_eq] at outcome
    split at outcome
    · have held := store.held_change change.on
      rw [outcome] at held
      exact ⟨held ▸ Change.ordered_on ordered change, held⟩
    · next idle =>
      cases outcome
      exact ⟨ordered, (Change.on_of_not_rewrites ordered (eq_false_of_ne_true idle)).symm⟩
  failed {store after change e} _ outcome := by
    rw [DocumentStore.apply_eq] at outcome
    split at outcome
    · have held := store.held_change change.on
      rw [outcome] at held
      exact held
    · cases outcome

end View

end KeyValueStore

end Keyfob
