import Keyfob.Proofs.Store.Durability

/-!
# Stores that answer alike

Two stores answer alike (`KeyValueStore.AnswersAlike`) when no query tells one from the other: not
the value under a key, not the value as one of a type, not the listing of everything. A store in
memory and a store in a document that are given the same calls answer alike after each of them,
although the second makes no change where nothing is there to be removed. While its document can
be written, the store that is opened again on the document answers alike too.
-/
namespace Keyfob

namespace KeyValueStore

section Queries

variable {κ μ : Type} [KeyValueStore κ] [KeyValueStore μ]

/-- Everything that a store holds, namespace by namespace, those without keys included. -/
def listing (store : κ) : List (Text × List (Text × StoreValue)) :=
  (contents store).entries.map fun (space, inside) => (space, inside.entries)

/-- Two stores give the same answer to every query. -/
structure AnswersAlike (first : κ) (second : μ) : Prop where
  /-- The same value is under every key. -/
  value : ∀ space key, get? first space key = get? second space key
  /-- The same integer is under every key, or none. -/
  int : ∀ space key, getInt? first space key = getInt? second space key
  /-- The same text is under every key, or none. -/
  string : ∀ space key, getString? first space key = getString? second space key
  /-- The same truth value is under every key, or none. -/
  bool : ∀ space key, getBool? first space key = getBool? second space key
  /-- The same namespaces are listed, with the same keys. -/
  listing : listing first = listing second

/-- Every query looks at the contents only. -/
theorem answersAlike_of_contents {first : κ} {second : μ}
    (same : contents first = contents second) : AnswersAlike first second := by
  have value (space key : Text) : get? first space key = get? second space key := by
    rw [get?, get?, same]
  constructor
  · exact value
  · intro space key
    rw [getInt?, getInt?, value]
  · intro space key
    rw [getString?, getString?, value]
  · intro space key
    rw [getBool?, getBool?, value]
  · rw [KeyValueStore.listing, KeyValueStore.listing, same]

end Queries

end KeyValueStore

open KeyValueStore (Change AnswersAlike)

namespace DocumentStore

variable {store : DocumentStore}

/-- A store in a document goes through the contents that its changes lead to, whether or not the
document can be written on the way. -/
theorem held_after (ordered : store.held.Ordered) (calls : List Call) :
    (store.after calls).held = (calls.map Call.change).foldl Change.on store.held := by
  induction calls generalizing store with
  | nil => rfl
  | cons call calls ih =>
    have before : (store.during call).held.Ordered := ordered
    have now : (store.call call).2.held = call.change.on store.held :=
      held_apply before call.change
    have later : (store.call call).2.held.Ordered := ordered_apply before call.change
    calc (store.after (call :: calls)).held
      _ = (calls.map Call.change).foldl Change.on (store.call call).2.held := ih later
      _ = ((call :: calls).map Call.change).foldl Change.on store.held := by
        rw [now, List.map_cons, List.foldl_cons]

/-- A call is accepted when the document can be written at that time. -/
theorem call_of_writable {call : Call} (writable : call.writable = true) :
    (store.call call).1 = .ok () := by
  have unlimited : (store.during call).allowance = none := by
    rw [during, if_pos writable]
  rw [DocumentStore.call, apply_eq]
  split
  · have spent : Allowance.spend? (store.during call).allowance = some none := by
      rw [unlimited]
      rfl
    simp only [change, commit, spent]
  · rfl

/-- Calls are accepted when the document can be written at each of them. -/
theorem allAccepted_of_writable {calls : List Call}
    (writable : ∀ call ∈ calls, call.writable = true) : store.AllAccepted calls := by
  induction calls generalizing store with
  | nil => trivial
  | cons call calls ih =>
    obtain ⟨now, later⟩ := List.forall_mem_cons.mp writable
    exact ⟨call_of_writable now, ih later⟩

/-- A store that is opened where there is no document and a store in memory, both given the same
calls, answer alike after any number of them. Where the document can be written at each call, all
calls are accepted; and where all are, the document can be opened again, as a store that answers
alike too. -/
theorem answers_after (opened : ofBytes none = .ok store) (calls : List Call) :
    ∃ memory : MemoryStore,
      KeyValueStore.applyAll (calls.map Call.change) ({} : MemoryStore) = (.ok (), memory) ∧
        AnswersAlike memory (store.after calls) ∧
        ((∀ call ∈ calls, call.writable = true) → store.AllAccepted calls) ∧
        (store.AllAccepted calls →
          ∃ again, (store.after calls).reopened = .ok again ∧ AnswersAlike memory again) := by
  obtain ⟨settled, ordered⟩ := settled_of_ofBytes opened
  obtain rfl : store = {} := by
    cases opened
    rfl
  have live := held_after ordered calls
  refine ⟨_, MemoryStore.applyAll_unlimited _ ∅, ?_, allAccepted_of_writable, ?_⟩
  · exact KeyValueStore.answersAlike_of_contents live.symm
  · intro accepted
    obtain ⟨again, reopened, held⟩ := settled_after ordered settled accepted
    exact ⟨again, reopened, KeyValueStore.answersAlike_of_contents (live.symm.trans held.symm)⟩

/-- A key is removed twice and a namespace without keys stays: the second removal leaves the
document as it is, and the store that is opened again lists the namespace as the others do. -/
theorem answers_after_removed_twice :
    let remove : Change := .remove "a" "k"
    let calls : List Call :=
      [{ change := .set "a" "k" (.int 7) }, { change := remove }, { change := remove },
        { change := .clear "b" }]
    ofBytes none = .ok {} ∧ (∀ call ∈ calls, call.writable = true) ∧
      ∃ again, (after {} calls).reopened = .ok again ∧
        KeyValueStore.listing again = [("a".toList, [])] := by
  intro remove calls
  have opened : ofBytes none = .ok {} := rfl
  have writable : ∀ call ∈ calls, call.writable = true := by decide
  obtain ⟨memory, made, alike, accepted, again⟩ := answers_after opened calls
  obtain ⟨reopened, outcome, same⟩ := again (accepted writable)
  have listed : KeyValueStore.listing (after {} calls) = [("a".toList, [])] := by decide
  refine ⟨opened, writable, reopened, outcome, ?_⟩
  rw [← same.listing, alike.listing, listed]

end DocumentStore

end Keyfob
