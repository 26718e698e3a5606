import Keyfob.Proofs.Store.Changes
import Keyfob.Proofs.Store.Document

/-!
# What a store in a document shows when it is opened again

A store that is kept in a document shows, when it is opened again, the contents that it had when
the document was last written (`DocumentStore.saved`). So a change that was accepted is shown
whenever it had the document written, or when the document held the contents already. A change
that removes what is not there is accepted without a look at the document: after a change that
failed, whose effect is in memory only, it is accepted although the document is behind.
-/
namespace Keyfob

open KeyValueStore (Change)

namespace DocumentStore

/-- A change of a store, and whether its document can be written at that time. -/
structure Call where
  /-- What is changed. -/
  change : Change
  /-- The document can be written. -/
  writable : Bool := true
deriving DecidableEq

/-- A store at the time of a call. -/
def during (store : DocumentStore) (call : Call) : DocumentStore :=
  { store with allowance := if call.writable then none else some 0 }

/-- Make a call. -/
def call (store : DocumentStore) (call : Call) : Except StoreError Unit × DocumentStore :=
  KeyValueStore.apply (store.during call) call.change

/-- The store after calls in order. -/
def after (store : DocumentStore) (calls : List Call) : DocumentStore :=
  calls.foldl (fun store call => (store.call call).2) store

/-- The store that is opened on the document of a store. -/
def reopened (store : DocumentStore) : Except StoreError DocumentStore :=
  ofBytes (store.document.map Text.utf8)

/-- The store as it is when it is opened again, if it can be. -/
def again (store : DocumentStore) : DocumentStore :=
  match store.reopened with
  | .ok again => again
  | .error _ => store

/-- Opening the document shows some contents. -/
def Shows (store : DocumentStore) (contents : Namespaces) : Prop :=
  ∃ again, store.reopened = .ok again ∧ again.held = contents

/-- The document is up to date: opening it shows what the store holds. -/
def Settled (store : DocumentStore) : Prop := store.Shows store.held

/-- Whether a change writes the document. -/
def writes (store : DocumentStore) (change : Change) : Bool :=
  change.rewrites store.held && (KeyValueStore.apply store change).1.isOk

/-- The contents when the document was last written, given those that it shows before some
calls. -/
def savedFrom (shown : Namespaces) (store : DocumentStore) : List Call → Namespaces
  | [] => shown
  | call :: calls =>
    let next := (store.call call).2
    savedFrom (if (store.during call).writes call.change then next.held else shown) next calls

/-- The contents when the document was last written, or when the store was opened. -/
def saved (store : DocumentStore) (calls : List Call) : Namespaces :=
  savedFrom store.held store calls

/-- Every call is accepted. -/
def AllAccepted (store : DocumentStore) : List Call → Prop
  | [] => True
  | call :: calls => (store.call call).1 = .ok () ∧ AllAccepted (store.call call).2 calls

/-- A document shows just one table of contents. -/
theorem Shows.unique {store : DocumentStore} {contents other : Namespaces}
    (shows : store.Shows contents) (again : store.Shows other) : contents = other := by
  obtain ⟨first, opened, rfl⟩ := shows
  obtain ⟨second, reopened, rfl⟩ := again
  rw [opened] at reopened
  cases reopened
  rfl

/-- A store that is opened again holds what its document shows. -/
theorem Shows.held_again {store : DocumentStore} {contents : Namespaces}
    (shows : store.Shows contents) : store.again.held = contents := by
  obtain ⟨again, reopened, rfl⟩ := shows
  rw [DocumentStore.again, reopened]

/-- A store that was opened holds what its document shows, and that is in order. -/
theorem settled_of_ofBytes {bytes : Option (List UInt8)} {store : DocumentStore}
    (opened : ofBytes bytes = .ok store) : store.Settled ∧ store.held.Ordered := by
  unfold ofBytes at opened
  split at opened
  · cases opened
    exact ⟨⟨_, rfl, rfl⟩, Namespaces.ordered_empty⟩
  split at opened
  · cases opened
  next document _ =>
  split at opened
  · cases opened
  next held found =>
  cases opened
  have again : ofBytes (some document.utf8) = .ok { held := held, document := some document } := by
    rw [ofBytes, Text.decode?_utf8]
    dsimp only
    rw [found]
  exact ⟨⟨_, again, rfl⟩, StoreDocument.ordered_of_read? found⟩

/-! ## One change -/

section Change

variable {store : DocumentStore} {change : Change}

/-- A change that writes the document writes what the store then holds, and any other leaves the
document as it is. -/
theorem document_apply (store : DocumentStore) (change : Change) :
    (KeyValueStore.apply store change).2.document =
      if store.writes change then
        some (StoreDocument.write (KeyValueStore.apply store change).2.held)
      else store.document := by
  unfold writes
  rw [apply_eq]
  cases change.rewrites store.held with
  | false => rfl
  | true =>
    rw [if_pos rfl, DocumentStore.change, commit]
    split <;> rfl

/-- A change is made in what the store holds, also where the document cannot be written. -/
theorem held_apply (ordered : store.held.Ordered) (change : Change) :
    (KeyValueStore.apply store change).2.held = change.on store.held := by
  rw [apply_eq]
  cases rewrites : change.rewrites store.held with
  | false => exact (Change.on_of_not_rewrites ordered rewrites).symm
  | true => exact held_change store change.on

/-- A change keeps what the store holds in order. -/
theorem ordered_apply (ordered : store.held.Ordered) (change : Change) :
    (KeyValueStore.apply store change).2.held.Ordered := by
  rw [held_apply ordered]
  exact Change.ordered_on ordered change

/-- After a change that writes the document, the document shows what the store holds; after any
other it shows what it did before. -/
theorem shows_apply {shown : Namespaces} (ordered : store.held.Ordered) (shows : store.Shows shown)
    (change : Change) : (KeyValueStore.apply store change).2.Shows
      (if store.writes change then (KeyValueStore.apply store change).2.held else shown) := by
  unfold Shows reopened
  rw [document_apply]
  split
  · exact ⟨_, ofBytes_write (ordered_apply ordered change), rfl⟩
  · exact shows

/-- An accepted change leaves the document up to date where it writes the document, or where the
document was up to date before. -/
theorem settled_apply_iff {shown : Namespaces} (ordered : store.held.Ordered)
    (shows : store.Shows shown) (accepted : (KeyValueStore.apply store change).1 = .ok ()) :
    (KeyValueStore.apply store change).2.Settled ↔
      change.rewrites store.held = true ∨ store.Settled := by
  have now := shows_apply ordered shows change
  unfold writes at now
  rw [accepted] at now
  -- An accepted change that does not write the document leaves both sides as they are.
  cases rewrites : change.rewrites store.held with
  | true =>
    rw [rewrites] at now
    exact iff_of_true now (.inl rfl)
  | false =>
    rw [rewrites] at now
    have held : (KeyValueStore.apply store change).2.held = store.held := by
      rw [held_apply ordered, Change.on_of_not_rewrites ordered rewrites]
    unfold Settled
    rw [held]
    constructor
    · intro settled
      exact .inr (now.unique settled ▸ shows)
    · rintro (contra | settled)
      · cases contra
      · exact shows.unique settled ▸ now

end Change

/-! ## Any calls -/

section Calls

variable {store : DocumentStore}

/-- One call more. -/
theorem after_concat (store : DocumentStore) (calls : List Call) (last : Call) :
    store.after (calls ++ [last]) = ((store.after calls).call last).2 := by
  rw [after, List.foldl_append]
  rfl

/-- Calls keep what the store holds in order. -/
theorem ordered_after (ordered : store.held.Ordered) (calls : List Call) :
    (store.after calls).held.Ordered := by
  induction calls generalizing store with
  | nil => exact ordered
  | cons call calls ih =>
    have now : (store.during call).held.Ordered := ordered
    exact ih (ordered_apply now call.change)

/-- After any calls, the document shows the contents when it was last written. -/
theorem shows_after {shown : Namespaces} (ordered : store.held.Ordered) (shows : store.Shows shown)
    (calls : List Call) : (store.after calls).Shows (savedFrom shown store calls) := by
  induction calls generalizing store shown with
  | nil => exact shows
  | cons call calls ih =>
    have now : (store.during call).held.Ordered := ordered
    exact ih (ordered_apply now call.change) (shows_apply now shows call.change)

/-- While every call is accepted, the document stays up to date. -/
theorem settled_after (ordered : store.held.Ordered) (settled : store.Settled) {calls : List Call}
    (accepted : store.AllAccepted calls) : (store.after calls).Settled := by
  induction calls generalizing store with
  | nil => exact settled
  | cons call calls ih =>
    obtain ⟨first, later⟩ := accepted
    have now : (store.during call).held.Ordered := ordered
    exact ih (ordered_apply now call.change)
      ((settled_apply_iff now settled first).mpr (.inr settled)) later

/-- After any calls on a store that was opened, of which any may have failed, and one that was
accepted: opening the document again shows the contents when it was last written. These are the
contents of the store just where the accepted call writes the document, or where the document was
up to date before it; so it is while no call fails. -/
theorem shows_of_accepted {bytes : Option (List UInt8)} (opened : ofBytes bytes = .ok store)
    (calls : List Call) {last : Call} (accepted : ((store.after calls).call last).1 = .ok ()) :
    (store.after (calls ++ [last])).Shows (store.saved (calls ++ [last])) ∧
      ((store.after (calls ++ [last])).Settled ↔
        last.change.rewrites (store.after calls).held = true ∨ (store.after calls).Settled) ∧
      (store.AllAccepted calls → (store.after (calls ++ [last])).Settled) := by
  obtain ⟨settled, ordered⟩ := settled_of_ofBytes opened
  have before : ((store.after calls).during last).held.Ordered := ordered_after ordered calls
  have shown := shows_after ordered settled calls
  have decided := settled_apply_iff before shown accepted
  refine ⟨shows_after ordered settled (calls ++ [last]), ?_, fun all => ?_⟩
  · rw [after_concat]
    exact decided
  · rw [after_concat]
    exact decided.mpr (.inr (settled_after ordered settled all))

/-- A value that could not be stored is stored at the second attempt. -/
theorem shows_of_accepted_set :
    let put : Change := .set "a" "k" (.bool true)
    let store : DocumentStore := {}
    ofBytes none = .ok store ∧
      ((store.after [{ change := put, writable := false }]).call { change := put }).1 = .ok () ∧
      (store.after [{ change := put, writable := false }, { change := put }]).Settled := by
  intro put store
  have opened : ofBytes none = .ok store := rfl
  have accepted :
      ((store.after [{ change := put, writable := false }]).call { change := put }).1 = .ok () :=
    rfl
  exact ⟨opened, accepted, (shows_of_accepted opened _ accepted).2.1.mpr (.inl rfl)⟩

/-- A key that could not be removed is accepted as removed at the second attempt, and is there
again when the document is opened. -/
theorem not_settled_of_accepted_remove :
    let put : Change := .set "a" "k" (.bool true)
    let remove : Change := .remove "a" "k"
    let store : DocumentStore := {}
    let calls : List Call := [{ change := put }, { change := remove, writable := false }]
    let now := store.after (calls ++ [{ change := remove }])
    ofBytes none = .ok store ∧
      ((store.after calls).call { change := remove }).1 = .ok () ∧
      now.held.find? "a" "k" = none ∧
      (∃ again, now.reopened = .ok again ∧ again.held.find? "a" "k" = some (.bool true)) ∧
      ¬now.Settled := by
  intro put remove store calls now
  have opened : ofBytes none = .ok store := rfl
  obtain ⟨settled, ordered⟩ := settled_of_ofBytes opened
  have shows : now.Shows (store.saved (calls ++ [{ change := remove }])) :=
    shows_after ordered settled _
  have gone : now.held.find? "a" "k" = none := by decide
  have there : (store.saved (calls ++ [{ change := remove }])).find? "a" "k" =
      some (.bool true) := by decide
  obtain ⟨again, reopened, held⟩ := shows
  refine ⟨opened, rfl, gone, ⟨again, reopened, by rw [held, there]⟩, fun behind => ?_⟩
  rw [behind.unique ⟨again, reopened, held⟩, there] at gone
  cases gone

end Calls

end DocumentStore

namespace KeyValueStore.View

/-- A store in a document as it is when it is opened again: a change that fails is not seen. -/
def reopened : View DocumentStore where
  look := DocumentStore.again
  Fit store := store.Settled ∧ store.held.Ordered
  late := false
  made {store after change} fit outcome := by
    obtain ⟨settled, ordered⟩ := fit
    have now := (DocumentStore.settled_apply_iff ordered settled
      (congrArg Prod.fst outcome)).mpr (.inr settled)
    have held := DocumentStore.held_apply ordered change
    have later := DocumentStore.ordered_apply ordered change
    rw [outcome] at now held later
    refine ⟨⟨now, later⟩, ?_⟩
    exact now.held_again.trans (held.trans (congrArg change.on settled.held_again.symm))
  failed {store after change e} fit outcome := by
    obtain ⟨settled, ordered⟩ := fit
    have idle : store.writes change = false := by
      rw [DocumentStore.writes, outcome]
      exact Bool.and_false _
    have now := DocumentStore.shows_apply ordered settled change
    rw [outcome, idle] at now
    exact now.held_again.trans settled.held_again.symm

end KeyValueStore.View

end Keyfob
