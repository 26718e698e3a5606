import Keyfob.Allowance
import Keyfob.Table
import Keyfob.Text.Number
import Keyfob.Text.Quoted

/-!
# Key-value stores

A store keeps values of three types under keys within namespaces. Every change is on its own:
there is no grouping of changes, and a change that fails leaves the changes before it. What a
store does is a class, with a store in memory here and one in a document beside it.
-/
namespace Keyfob

/-- A stored value. -/
inductive StoreValue where
  /-- An integer. -/
  | int (value : Int64)
  /-- A text. -/
  | string (text : Text)
  /-- A truth value. -/
  | bool (value : Bool)
deriving DecidableEq

/-- A stored value as it is shown in a listing. -/
def StoreValue.text : StoreValue → Text
  | int value => Text.ofInt value.toInt
  | string t => Text.quoted t
  | bool true => "true"
  | bool false => "false"

/-- The values of a store, by namespace and key. -/
abbrev Namespaces := Table (Table StoreValue)

namespace Namespaces

/-- The value under a key. -/
def find? (contents : Namespaces) (space key : Text) : Option StoreValue :=
  (contents.get? space).bind (Table.get? · key)

/-- The contents with a value under a key. -/
def put (contents : Namespaces) (space key : Text) (value : StoreValue) : Namespaces :=
  contents.insert space (((contents.get? space).getD ∅).insert key value)

/-- The contents without a key; its namespace stays, even empty. -/
def remove (contents : Namespaces) (space key : Text) : Namespaces :=
  match contents.get? space with
  | none => contents
  | some entries => contents.insert space (entries.erase key)

/-- The contents without a namespace. -/
def clear (contents : Namespaces) (space : Text) : Namespaces := contents.erase space

end Namespaces

/-- Why a store failed. -/
inductive StoreError where
  /-- It could not be read or written. -/
  | io
  /-- What was read is not the form that a store has. -/
  | format
deriving DecidableEq

/-- Something that keeps values. -/
class KeyValueStore (κ : Type) where
  /-- The values as they are now. -/
  contents : κ → Namespaces
  /-- Put a value under a key. -/
  set : Text → Text → StoreValue → κ → Except StoreError Unit × κ
  /-- Remove a key. -/
  remove : Text → Text → κ → Except StoreError Unit × κ
  /-- Remove a namespace. -/
  clear : Text → κ → Except StoreError Unit × κ

namespace KeyValueStore

variable {κ : Type} [KeyValueStore κ]

/-- The value under a key. -/
def get? (store : κ) (space key : Text) : Option StoreValue := (contents store).find? space key

/-- The integer under a key, if what is there is one. -/
def getInt? (store : κ) (space key : Text) : Option Int64 :=
  match get? store space key with
  | some (.int value) => some value
  | _ => none

/-- The text under a key, if what is there is one. -/
def getString? (store : κ) (space key : Text) : Option Text :=
  match get? store space key with
  | some (.string t) => some t
  | _ => none

/-- The truth value under a key, if what is there is one. -/
def getBool? (store : κ) (space key : Text) : Option Bool :=
  match get? store space key with
  | some (.bool value) => some value
  | _ => none

/-- One change of a store. -/
inductive Change where
  /-- Put a value under a key. -/
  | set (space key : Text) (value : StoreValue)
  /-- Remove a key. -/
  | remove (space key : Text)
  /-- Remove a namespace. -/
  | clear (space : Text)
deriving DecidableEq

/-- Make one change. -/
def apply (store : κ) : Change → Except StoreError Unit × κ
  | .set space key value => set space key value store
  | .remove space key => remove space key store
  | .clear space => clear space store

/-- Make changes in order, up to the first that fails. -/
def applyAll : List Change → κ → Except StoreError Unit × κ
  | [], store => (.ok (), store)
  | change :: changes, store =>
    match apply store change with
    | (.ok (), store) => applyAll changes store
    | (.error e, store) => (.error e, store)

end KeyValueStore

/-- A store in memory. -/
structure MemoryStore where
  /-- The values. -/
  held : Namespaces := ∅
  /-- How many more changes are accepted. -/
  allowance : Allowance := none
deriving DecidableEq

namespace MemoryStore

/-- Change the values, if a further change is accepted. -/
def change (store : MemoryStore) (next : Namespaces → Namespaces) :
    Except StoreError Unit × MemoryStore :=
  match store.allowance.spend? with
  | none => (.error .io, store)
  | some allowance => (.ok (), { held := next store.held, allowance := allowance })

instance : KeyValueStore MemoryStore where
  contents store := store.held
  set space key value store := store.change (·.put space key value)
  remove space key store := store.change (·.remove space key)
  clear space store := store.change (·.clear space)

end MemoryStore

end Keyfob
