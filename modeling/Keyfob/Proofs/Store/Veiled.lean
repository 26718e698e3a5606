import Keyfob.Access.Codes
import Keyfob.Access.Credential
import Keyfob.Proofs.Store.Changes

/-!
# Stores that differ in secrets only

Two stores are alike (`KeyValueStore.Veiled.Alike`) if the same things are stored in them, except
for what the secrets are, and if they fail alike. Changes keep them alike, so everything that is
read from them is the same but for the secrets: the names and the number of the credentials
(`Credentials.names_load`), and the login code (`AccessCodes.stored?_alike`).
-/
namespace Keyfob

/-- A key under which a secret is stored. -/
def Credential.IsSecret (space key : Text) : Prop :=
  space = Credential.space ∧ ∃ place, key = Credential.secretKey place

namespace Namespaces

/-- Contents that are the same but for what the secrets are. -/
structure Alike (contents other : Namespaces) : Prop where
  /-- The same namespaces are there. -/
  holds : ∀ space, other.holds space = contents.holds space
  /-- The same keys are there. -/
  present : ∀ space key, (other.find? space key).isSome = (contents.find? space key).isSome
  /-- What is not secret is the same. -/
  plain : ∀ space key, ¬Credential.IsSecret space key →
    other.find? space key = contents.find? space key

end Namespaces

namespace KeyValueStore

/-- Which namespaces are there after a change. -/
theorem Change.holds_on (contents : Namespaces) (space : Text) (change : Change) :
    (change.on contents).holds space =
      match change with
      | .set home _ _ => decide (home = space) || contents.holds space
      | .remove _ _ => contents.holds space
      | .clear home => !decide (home = space) && contents.holds space := by
  unfold Table.holds
  cases change with
  | set home key value =>
    rw [on, Namespaces.put, Table.get?_insert]
    by_cases here : home = space
    · simp only [here, if_true, Option.isSome_some, decide_true, Bool.true_or]
    · simp only [here, if_false, decide_false, Bool.false_or]
  | remove home key =>
    rw [on, Namespaces.remove]
    cases inside : contents.get? home with
    | none => rfl
    | some entries =>
      simp only
      rw [Table.get?_insert]
      by_cases here : home = space
      · subst here
        rw [if_pos rfl, inside]
        rfl
      · rw [if_neg here]
  | clear home =>
    rw [on, Namespaces.clear, Table.get?_erase]
    by_cases here : home = space
    · simp only [here, if_true, Option.isSome_none, decide_true, Bool.not_true, Bool.false_and]
    · simp only [here, if_false, decide_false, Bool.not_false, Bool.true_and]

/-- A change keeps contents alike. -/
theorem Change.alike_on {contents other : Namespaces} (alike : contents.Alike other)
    (change : Change) : (change.on contents).Alike (change.on other) where
  holds space := by
    rw [holds_on, holds_on]
    cases change with
    | set home key value => simp only [alike.holds]
    | remove home key => exact alike.holds space
    | clear home => simp only [alike.holds]
  present space key := by
    rw [find?_on, find?_on]
    split
    · rfl
    · exact alike.present space key
  plain space key shown := by
    rw [find?_on, find?_on]
    split
    · rfl
    · exact alike.plain space key shown

/-- Another secret in the place of one keeps contents alike. -/
theorem alike_put_secret {contents : Namespaces} {place : Nat}
    (there : (contents.find? Credential.space (Credential.secretKey place)).isSome = true)
    (value : StoreValue) :
    contents.Alike (contents.put Credential.space (Credential.secretKey place) value) := by
  let change : Change := .set Credential.space (Credential.secretKey place) value
  refine ⟨fun space => ?_, fun space key => ?_, fun space key shown => ?_⟩
  · refine (change.holds_on contents space).trans ?_
    by_cases here : Credential.space = space
    · subst here
      have held : contents.holds Credential.space = true := by
        obtain ⟨_, found⟩ := Option.isSome_iff_exists.mp there
        obtain ⟨entries, inside, _⟩ := Option.bind_eq_some_iff.mp found
        exact Option.isSome_iff_exists.mpr ⟨entries, inside⟩
      rw [held]
      exact Bool.or_true _
    · exact (congrArg (· || contents.holds space) (decide_eq_false here)).trans (Bool.false_or _)
  · refine (congrArg Option.isSome (change.find?_on contents space key)).trans ?_
    split
    · next touched =>
      obtain ⟨rfl, rfl⟩ := of_decide_eq_true touched
      exact there.symm
    · rfl
  · refine (change.find?_on contents space key).trans (if_neg fun touched => ?_)
    obtain ⟨rfl, rfl⟩ := of_decide_eq_true touched
    exact shown ⟨rfl, place, rfl⟩

/-- A document of contents is written anew where one of contents alike is. -/
theorem Change.rewrites_alike {contents other : Namespaces} (alike : contents.Alike other)
    (change : Change) : change.rewrites other = change.rewrites contents := by
  cases change with
  | set space key value => rfl
  | remove space key => exact alike.present space key
  | clear space => exact alike.holds space

/-- Stores that can be alike but for what the secrets are: they hold contents alike, and changes
go the same way and keep them alike. -/
class Veiled (κ : Type) [KeyValueStore κ] where
  /-- The stores are the same but for what the secrets are, and fail alike. -/
  Alike : κ → κ → Prop
  /-- They hold contents alike. -/
  contents : ∀ {store other : κ}, Alike store other →
    (KeyValueStore.contents store).Alike (KeyValueStore.contents other)
  /-- Changes go the same way and keep them alike. -/
  apply : ∀ {store other : κ}, Alike store other → ∀ change : Change,
    (KeyValueStore.apply other change).1 = (KeyValueStore.apply store change).1 ∧
      Alike (KeyValueStore.apply store change).2 (KeyValueStore.apply other change).2

end KeyValueStore

/-- Stores in memory are alike if they hold contents alike and accept as many changes. -/
structure MemoryStore.Alike (store other : MemoryStore) : Prop where
  /-- The contents are alike. -/
  held : store.held.Alike other.held
  /-- As many changes are accepted. -/
  allowance : other.allowance = store.allowance

/-- Stores in a document are alike if they hold contents alike and their documents can be written
as often. -/
structure DocumentStore.Alike (store other : DocumentStore) : Prop where
  /-- The contents are alike. -/
  held : store.held.Alike other.held
  /-- The documents can be written as often. -/
  allowance : other.allowance = store.allowance

instance : KeyValueStore.Veiled MemoryStore where
  Alike := MemoryStore.Alike
  contents alike := alike.held
  apply {store other} alike change := by
    rw [MemoryStore.apply_eq, MemoryStore.apply_eq]
    unfold MemoryStore.change
    rw [alike.allowance]
    cases store.allowance.spend? with
    | none => exact ⟨rfl, alike⟩
    | some allowance => exact ⟨rfl, change.alike_on alike.held, rfl⟩

instance : KeyValueStore.Veiled DocumentStore where
  Alike := DocumentStore.Alike
  contents alike := alike.held
  apply {store other} alike change := by
    rw [DocumentStore.apply_eq, DocumentStore.apply_eq, change.rewrites_alike alike.held]
    split
    · unfold DocumentStore.change DocumentStore.commit
      simp only [alike.allowance]
      cases store.allowance.spend? with
      | none => exact ⟨rfl, change.alike_on alike.held, rfl⟩
      | some allowance => exact ⟨rfl, change.alike_on alike.held, rfl⟩
    · exact ⟨rfl, alike⟩

section Reading

variable {κ : Type} [KeyValueStore κ] [KeyValueStore.Veiled κ] {store other : κ}
  (alike : KeyValueStore.Veiled.Alike store other)

include alike

/-- What is not secret is the same in stores alike. -/
theorem KeyValueStore.get?_alike {space key : Text} (shown : ¬Credential.IsSecret space key) :
    get? other space key = get? store space key :=
  (Veiled.contents alike).plain space key shown

/-- The login code that is stored is the same. -/
theorem AccessCodes.stored?_alike : stored? other = stored? store := by
  have same (place : Nat) : storedDigit? other place = storedDigit? store place := by
    unfold storedDigit? KeyValueStore.getInt?
    rw [KeyValueStore.get?_alike alike fun secret => absurd secret.1 (by decide)]
  unfold stored?
  simp only [same]

/-- The names of the credentials that are stored are the same. -/
theorem Credentials.names_load : (load other).names = (load store).names := by
  have counted : KeyValueStore.get? other Credential.space Credential.countKey =
      KeyValueStore.get? store Credential.space Credential.countKey := by
    refine KeyValueStore.get?_alike alike ?_
    rintro ⟨-, place, same⟩
    cases same
  have named (place : Nat) : (storedAt other place).name = (storedAt store place).name := by
    unfold storedAt KeyValueStore.getString?
    dsimp only
    rw [KeyValueStore.get?_alike alike]
    rintro ⟨-, place, same⟩
    cases same
  unfold names load storedCount KeyValueStore.getInt?
  rw [counted, List.map_map, List.map_map]
  exact List.map_congr_left fun place _ => named place

end Reading

end Keyfob
