import Keyfob.Proofs.Store.Answers

/-!
# Changes that could not be written

A store in a document makes a change in what it holds before it writes the document. Where the
document cannot be written, the call fails and the change stays: from then on, after any later
calls, the store answers as if the call had been accepted, and the next call that has the document
written writes that change with its own (`DocumentStore.kept_of_failed`). Only a value that is put
where it was already makes no difference. On the document itself a failed call leaves no trace.
-/
namespace Keyfob

namespace KeyValueStore

/-- A change for which the document is written leaves the contents as they are only where it puts a
value that was there already. -/
theorem Change.on_eq_iff {contents : Namespaces} (ordered : contents.Ordered) {change : Change}
    (rewrites : change.rewrites contents = true) :
    change.on contents = contents ↔
      ∃ space key value, change = .set space key value ∧
        contents.find? space key = some value := by
  constructor
  · intro same
    cases change with
    | set space key value =>
      have put := Change.find?_on contents space key (.set space key value)
      have touched : (Change.set space key value).touches space key = true := by
        simp [touches]
      rw [same, if_pos touched] at put
      exact ⟨space, key, value, rfl, put⟩
    | remove space key =>
      have gone := Change.find?_on contents space key (.remove space key)
      have touched : (Change.remove space key).touches space key = true := by
        simp [touches]
      have there : (contents.find? space key).isSome = true := rewrites
      rw [same, if_pos touched] at gone
      rw [gone] at there
      cases there
    | clear space =>
      have gone : (contents.erase space).get? space = none := by
        rw [Table.get?_erase, if_pos rfl]
      have there : (contents.get? space).isSome = true := rewrites
      rw [show contents.erase space = contents from same] at gone
      rw [gone] at there
      cases there
  · rintro ⟨space, key, value, rfl, found⟩
    cases inside : contents.get? space with
    | none =>
      rw [Namespaces.find?, inside] at found
      cases found
    | some entries =>
      have held : entries.get? key = some value := by
        rw [Namespaces.find?, inside] at found
        exact found
      have kept : entries.insert key value = entries :=
        Table.insert_of_get? (ordered.get? inside) held
      show contents.put space key value = contents
      rw [Namespaces.put, inside, Option.getD_some, kept]
      exact Table.insert_of_get? ordered.outer inside

/-- Stores that answer alike hold the same. -/
theorem contents_of_answersAlike {κ μ : Type} [KeyValueStore κ] [KeyValueStore μ] {first : κ}
    {second : μ} (alike : AnswersAlike first second) : contents first = contents second := by
  have injective : ∀ entry other : Text × Table StoreValue,
      (entry.1, entry.2.entries) = (other.1, other.2.entries) → entry = other := by
    rintro ⟨space, ⟨entries⟩⟩ ⟨home, ⟨others⟩⟩ same
    cases same
    rfl
  have entries : (contents first).entries = (contents second).entries :=
    (List.map_inj_right injective).mp alike.listing
  exact congrArg Table.mk entries

end KeyValueStore

open KeyValueStore (Change AnswersAlike)

namespace DocumentStore

variable {store : DocumentStore}

/-- A call fails because it has the document written and that is not possible. -/
theorem rewrites_of_failed {call : Call} {e : StoreError}
    (failed : (store.call call).1 = .error e) : call.change.rewrites store.held = true := by
  cases idle : call.change.rewrites store.held with
  | true => rfl
  | false =>
    have accepted : store.call call = (.ok (), store.during call) := by
      rw [DocumentStore.call, apply_eq, show (store.during call).held = store.held from rfl, idle]
      rfl
    rw [accepted] at failed
    cases failed

/-- A call that fails leaves the document as it is. -/
theorem document_of_failed {call : Call} {e : StoreError}
    (failed : (store.call call).1 = .error e) : (store.call call).2.document = store.document := by
  have idle : (store.during call).writes call.change = false := by
    have outcome : (KeyValueStore.apply (store.during call) call.change).1 = .error e := failed
    rw [writes, outcome]
    exact Bool.and_false _
  rw [DocumentStore.call, document_apply, idle]
  rfl

/-- What a store holds after some calls does not depend on which of them were accepted. -/
theorem answersAlike_of_changes (ordered : store.held.Ordered) {calls others : List Call}
    (same : calls.map Call.change = others.map Call.change) :
    AnswersAlike (store.after calls) (store.after others) := by
  apply KeyValueStore.answersAlike_of_contents
  show (store.after calls).held = (store.after others).held
  rw [held_after ordered, held_after ordered, same]

/-- A call that has the document written leaves it up to date. -/
theorem settled_of_writes {shown : Namespaces} (ordered : store.held.Ordered)
    (shows : store.Shows shown) {call : Call}
    (written : (store.during call).writes call.change = true) : (store.call call).2.Settled := by
  obtain ⟨rewrites, accepted⟩ := Bool.and_eq_true_iff.mp written
  have done : (store.call call).1 = .ok () := by
    cases outcome : (store.call call).1 with
    | ok _ => rfl
    | error e =>
      rw [show (KeyValueStore.apply (store.during call) call.change).1 = .error e from outcome]
        at accepted
      cases accepted
  have now : (store.during call).held.Ordered := ordered
  exact (settled_apply_iff now shows done).mpr (.inl rewrites)

/-- A call whose document could not be written leaves the document as it was and its change in what
the store holds. So the store answers as before only where the change puts a value that was there
already; and after any later calls it answers as if the call had been accepted. The first later
call that has the document written writes the change too: the document then opens as a store that
answers as if the call had been accepted. -/
theorem kept_of_failed {bytes : Option (List UInt8)} (opened : ofBytes bytes = .ok store)
    (calls : List Call) {failing : Call} {e : StoreError}
    (failed : ((store.after calls).call failing).1 = .error e) :
    (store.after (calls ++ [failing])).document = (store.after calls).document ∧
      (AnswersAlike (store.after (calls ++ [failing])) (store.after calls) ↔
        ∃ space key value, failing.change = .set space key value ∧
          KeyValueStore.get? (store.after calls) space key = some value) ∧
      ∀ later : List Call,
        AnswersAlike (store.after (calls ++ failing :: later))
            (store.after (calls ++ { failing with writable := true } :: later)) ∧
          ∀ last : Call,
            ((store.after (calls ++ failing :: later)).during last).writes last.change = true →
              ∃ again,
                (store.after (calls ++ failing :: (later ++ [last]))).reopened = .ok again ∧
                  AnswersAlike again
                    (store.after
                      (calls ++ { failing with writable := true } :: (later ++ [last]))) := by
  obtain ⟨settled, ordered⟩ := settled_of_ofBytes opened
  have before : (store.after calls).held.Ordered := ordered_after ordered calls
  have rewrites := rewrites_of_failed failed
  have held : (store.after (calls ++ [failing])).held =
      failing.change.on (store.after calls).held := by
    have now : ((store.after calls).during failing).held.Ordered := before
    rw [after_concat]
    exact held_apply now failing.change
  have alike (later : List Call) : AnswersAlike (store.after (calls ++ failing :: later))
      (store.after (calls ++ { failing with writable := true } :: later)) := by
    apply answersAlike_of_changes ordered
    simp only [List.map_append, List.map_cons]
  refine ⟨?_, ?_, fun later => ⟨alike later, fun last written => ?_⟩⟩
  · rw [after_concat]
    exact document_of_failed failed
  · have decided := Change.on_eq_iff before rewrites
    constructor
    · intro same
      exact decided.mp (held.symm.trans (KeyValueStore.contents_of_answersAlike same))
    · intro put
      exact KeyValueStore.answersAlike_of_contents (held.trans (decided.mpr put))
  · have whole : calls ++ failing :: (later ++ [last]) = (calls ++ failing :: later) ++ [last] := by
      simp only [List.append_assoc, List.cons_append]
    have current : (store.after (calls ++ failing :: (later ++ [last]))).Settled := by
      rw [whole, after_concat]
      exact settled_of_writes (ordered_after ordered _) (shows_after ordered settled _) written
    obtain ⟨again, reopened, same⟩ := current
    refine ⟨again, reopened, ?_⟩
    have now := KeyValueStore.contents_of_answersAlike (alike (later ++ [last]))
    exact KeyValueStore.answersAlike_of_contents (same.trans now)

/-- A key whose removal failed is gone, and once something else is stored it is gone from the
document. -/
theorem kept_of_failed_remove :
    let put : Call := { change := .set "a" "k" (.bool true) }
    let failing : Call := { change := .remove "a" "k", writable := false }
    let last : Call := { change := .set "b" "l" (.int 1) }
    let store : DocumentStore := {}
    ofBytes none = .ok store ∧
      ((store.after [put]).call failing).1 = .error .io ∧
      ¬AnswersAlike (store.after ([put] ++ [failing])) (store.after [put]) ∧
      ((store.after ([put] ++ failing :: [])).during last).writes last.change = true ∧
      ∃ again, (store.after ([put] ++ failing :: ([] ++ [last]))).reopened = .ok again ∧
        KeyValueStore.get? again "a" "k" = none := by
  intro put failing last store
  have opened : ofBytes none = .ok store := rfl
  have failed : ((store.after [put]).call failing).1 = .error .io := rfl
  have written : ((store.after ([put] ++ failing :: [])).during last).writes last.change = true :=
    rfl
  obtain ⟨-, alike, later⟩ := kept_of_failed opened [put] failed
  obtain ⟨again, reopened, same⟩ := (later []).2 last written
  have gone : KeyValueStore.get?
      (store.after ([put] ++ { failing with writable := true } :: ([] ++ [last]))) "a" "k" =
        none := by
    decide
  refine ⟨opened, failed, fun same => ?_, written, again, reopened, ?_⟩
  · obtain ⟨space, key, value, impossible, -⟩ := alike.mp same
    cases impossible
  · rw [same.value, gone]

/-- A value that could not be stored is found all the same, and once something else is stored it is
found in the document. -/
theorem found_after_failed_set :
    let failing : Call := { change := .set "a" "k" (.bool true), writable := false }
    let next : Call := { change := .set "b" "l" (.int 1) }
    let store : DocumentStore := {}
    ofBytes none = .ok store ∧ (store.call failing).1 = .error .io ∧
      KeyValueStore.get? store "a" "k" = none ∧
      KeyValueStore.get? (store.call failing).2 "a" "k" = some (.bool true) ∧
      KeyValueStore.listing (store.call failing).2 ≠ KeyValueStore.listing store ∧
      ((store.call failing).2.call next).1 = .ok () ∧
      ∃ again, (store.after [failing, next]).reopened = .ok again ∧
        KeyValueStore.get? again "a" "k" = some (.bool true) := by
  intro failing next store
  have opened : ofBytes none = .ok store := rfl
  obtain ⟨settled, ordered⟩ := settled_of_ofBytes opened
  obtain ⟨again, reopened, held⟩ := shows_after ordered settled [failing, next]
  have saved : (savedFrom store.held store [failing, next]).find? "a" "k" = some (.bool true) := by
    decide
  refine ⟨opened, rfl, rfl, by decide, by decide, rfl, again, reopened, ?_⟩
  show again.held.find? "a" "k" = some (.bool true)
  rw [held, saved]

end DocumentStore

end Keyfob
