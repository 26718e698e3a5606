import Keyfob.Json.Value
import Keyfob.Store.Basic
import Keyfob.Text.Utf8

/-!
# Stores in a document

A store can be kept in one JSON document, which is written anew at every change: an object of
namespaces, each an object of keys, each with the type and the value of what is stored. The
document is indented by two blanks a level and lists everything in the order of the names.
-/
namespace Keyfob

namespace StoreDocument

/-- The two hexadecimal digits of a number below 256. -/
def hexPair (n : Nat) : Text := [Nat.digitChar (n / 16), Nat.digitChar (n % 16)]

/-- A character inside a string. -/
def character (c : Char) : Text :=
  if c = '"' then "\\\""
  else if c = '\\' then "\\\\"
  else if c = '\x08' then "\\b"
  else if c = '\x0c' then "\\f"
  else if c = '\n' then "\\n"
  else if c = '\r' then "\\r"
  else if c = '\t' then "\\t"
  else if c.toNat < 0x20 then "\\u00".toList ++ hexPair c.toNat
  else [c]

/-- A text as a string. -/
def string (t : Text) : Text := ['"'] ++ t.flatMap character ++ ['"']

/-- The blanks that lead a line of a level. -/
def indent (level : Nat) : Text := List.replicate (2 * level) ' '

/-- An object at a level, given the keys with their written values. -/
def object (level : Nat) (members : List (Text × Text)) : Text :=
  if members.isEmpty then "\x7b\x7d"
  else
    let lines := members.map fun (key, value) =>
      indent (level + 1) ++ string key ++ ": " ++ value
    "\x7b\n" ++ Text.join ",\n" lines ++ "\n" ++ indent level ++ "\x7d"

/-- The word for the type of a value, and the value as it is written. -/
def fields : StoreValue → Text × Text
  | .int value => ("int", Text.ofInt value.toInt)
  | .string t => ("str", string t)
  | .bool true => ("bool", "true")
  | .bool false => ("bool", "false")

/-- A value at its level. -/
def value (value : StoreValue) : Text :=
  object 2 [("type", string (fields value).1), ("value", (fields value).2)]

/-- A namespace at its level. -/
def space (entries : Table StoreValue) : Text :=
  object 1 (entries.entries.map fun (key, held) => (key, value held))

/-- The document of some contents. -/
def write (contents : Namespaces) : Text :=
  object 0 (contents.entries.map fun (name, entries) => (name, space entries))

/-- The word that a type is given by: a string, or an object with that key and nothing
else. -/
def word? : JsonValue → Option Text
  | .string t => t
  | .object [(key, .null)] => key
  | _ => none

/-- The value of a type. -/
def typed? (type content : JsonValue) : Option StoreValue := do
  let word ← word? type
  match content with
  | .number literal =>
    if word = "int".toList then (JsonValue.int? literal).map StoreValue.int else none
  | .string (some t) => if word = "str".toList then some (.string t) else none
  | .bool held => if word = "bool".toList then some (.bool held) else none
  | _ => none

/-- The one member of a key, if there is just one. -/
def only? (key : Text) (members : List (Text × JsonValue)) : Option JsonValue :=
  match members.filter (·.1 == key) with
  | [(_, content)] => some content
  | _ => none

/-- The members of an object whose keys all spell a text. -/
def members? : JsonValue → Option (List (Text × JsonValue))
  | .object members => members.mapM fun (key, content) => key.map fun key => (key, content)
  | _ => none

/-- The value that a JSON value stands for: a type and a value, as the members of an object or,
with a string for the type, as the items of an array. -/
def value? : JsonValue → Option StoreValue
  | .array [.string type, content] => typed? (.string type) content
  | json => do
    let members ← members? json
    typed? (← only? "type" members) (← only? "value" members)

/-- The table that an object stands for, the last member of a key counting. -/
def table? {α : Type} (read : JsonValue → Option α) (json : JsonValue) : Option (Table α) := do
  let members ← members? json
  members.foldlM (fun table (key, content) => (read content).map (table.insert key)) ∅

/-- The contents that a document holds, if it has the form of one. -/
def read? (t : Text) : Option Namespaces := do table? (table? value?) (← JsonValue.parse? t)

end StoreDocument

/-- A store that is kept in a document. -/
structure DocumentStore where
  /-- The values. -/
  held : Namespaces := ∅
  /-- The document, none while there is none. -/
  document : Option Text := none
  /-- The documents that were written since the store was opened, the latest first. -/
  written : List Text := []
  /-- How many more times the document can be written. -/
  allowance : Allowance := none
deriving DecidableEq

namespace DocumentStore

/-- Open a store, given the bytes of its document if there is one. -/
def ofBytes (bytes : Option (List UInt8)) : Except StoreError DocumentStore :=
  match bytes with
  | none => .ok {}
  | some bytes =>
    match Text.decode? bytes with
    | none => .error .io
    | some document =>
      match StoreDocument.read? document with
      | none => .error .format
      | some held => .ok { held := held, document := some document }

/-- Write the document anew. -/
def commit (store : DocumentStore) : Except StoreError Unit × DocumentStore :=
  match store.allowance.spend? with
  | none => (.error .io, store)
  | some allowance =>
    let document := StoreDocument.write store.held
    (.ok (), { store with
      document := some document, written := document :: store.written, allowance := allowance })

/-- Change the values and then write the document, whose failure leaves the values changed. -/
def change (store : DocumentStore) (next : Namespaces → Namespaces) :
    Except StoreError Unit × DocumentStore :=
  commit { store with held := next store.held }

instance : KeyValueStore DocumentStore where
  contents store := store.held
  set space key value store := store.change (·.put space key value)
  remove space key store :=
    if (store.held.find? space key).isSome then store.change (·.remove space key)
    else (.ok (), store)
  clear space store :=
    if store.held.holds space then store.change (·.clear space) else (.ok (), store)

end DocumentStore

end Keyfob
