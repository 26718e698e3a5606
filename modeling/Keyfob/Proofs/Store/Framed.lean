import Keyfob.Access.Codes
import Keyfob.Store.Document

/-!
# Stores that keep namespaces apart

A change of a store names one namespace. A store is framed when a change, also one that fails,
leaves every other namespace as it was. The store in memory and the store in a document are
framed, and in a framed store a new login code leaves everything outside its own namespace alone.
-/
namespace Keyfob

namespace KeyValueStore

/-- The namespace that a change is about. -/
def Change.space : Change → Text
  | .set space _ _ => space
  | .remove space _ => space
  | .clear space => space

/-- A store in which a change of one namespace leaves the others alone. -/
class Framed (κ : Type) [KeyValueStore κ] : Prop where
  /-- Another namespace is as it was, also where the change fails. -/
  framed : ∀ (store : κ) (change : Change) (other : Text), change.space ≠ other →
    (contents (apply store change).2).get? other = (contents store).get? other

end KeyValueStore

namespace Namespaces

/-- A value that is put into one namespace leaves the others alone. -/
theorem get?_put (contents : Namespaces) {space other : Text} (key : Text) (value : StoreValue)
    (apart : space ≠ other) : (contents.put space key value).get? other = contents.get? other := by
  rw [put, Table.get?_insert, if_neg apart]

/-- A key that is removed from one namespace leaves the others alone. -/
theorem get?_remove (contents : Namespaces) {space other : Text} (key : Text)
    (apart : space ≠ other) : (contents.remove space key).get? other = contents.get? other := by
  unfold remove
  split
  · rfl
  · rw [Table.get?_insert, if_neg apart]

/-- A namespace that is removed leaves the others alone. -/
theorem get?_clear (contents : Namespaces) {space other : Text} (apart : space ≠ other) :
    (contents.clear space).get? other = contents.get? other := by
  rw [clear, Table.get?_erase, if_neg apart]

end Namespaces

/-- A change of the store in memory either happens or leaves everything as it was. -/
theorem MemoryStore.held_change (store : MemoryStore) (next : Namespaces → Namespaces) :
    (store.change next).2.held = next store.held ∨ (store.change next).2.held = store.held := by
  unfold change
  split
  · exact .inr rfl
  · exact .inl rfl

/-- A change of the store in a document happens, also where the document cannot be written. -/
theorem DocumentStore.held_change (store : DocumentStore) (next : Namespaces → Namespaces) :
    (store.change next).2.held = next store.held := by
  unfold change commit
  split <;> rfl

instance : KeyValueStore.Framed MemoryStore where
  framed store change other apart := by
    have kept (next : Namespaces → Namespaces)
        (fine : (next store.held).get? other = store.held.get? other) :
        (store.change next).2.held.get? other = store.held.get? other := by
      cases store.held_change next with
      | inl done => rw [done, fine]
      | inr undone => rw [undone]
    cases change with
    | set space key value =>
      exact kept (·.put space key value) (Namespaces.get?_put _ key value apart)
    | remove space key => exact kept (·.remove space key) (Namespaces.get?_remove _ key apart)
    | clear space => exact kept (·.clear space) (Namespaces.get?_clear _ apart)

instance : KeyValueStore.Framed DocumentStore where
  framed store change other apart := by
    have kept (next : Namespaces → Namespaces)
        (fine : (next store.held).get? other = store.held.get? other) :
        (store.change next).2.held.get? other = store.held.get? other := by
      rw [store.held_change next, fine]
    cases change with
    | set space key value =>
      exact kept (·.put space key value) (Namespaces.get?_put _ key value apart)
    | remove space key =>
      simp only [KeyValueStore.apply, KeyValueStore.remove]
      split
      · exact kept (·.remove space key) (Namespaces.get?_remove _ key apart)
      · rfl
    | clear space =>
      simp only [KeyValueStore.apply, KeyValueStore.clear]
      split
      · exact kept (·.clear space) (Namespaces.get?_clear _ apart)
      · rfl

end Keyfob
