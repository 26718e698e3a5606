import Keyfob.Toml.Scalar

/-!
# Values and tables of TOML

A table can be opened by its own header, by the header of a table inside it, by a dotted key,
or inline, and how it was opened decides what may still be added to it. `TomlTable.insert`
and `TomlTable.header` hold these rules.
-/
namespace Keyfob

/-- How a table was opened. -/
inductive TableOrigin where
  /-- By its own header, or as the whole text. -/
  | header
  /-- On the way to the table of a header. -/
  | passed
  /-- By a dotted key. -/
  | dotted
deriving DecidableEq

/-- A value of TOML. -/
inductive TomlValue where
  /-- A string. -/
  | string (t : Text)
  /-- An integer. -/
  | integer (n : Int64)
  /-- A truth value. -/
  | bool (value : Bool)
  /-- A floating-point number. -/
  | float
  /-- A date, a time, or both. -/
  | dateTime
  /-- An array. -/
  | array (items : List TomlValue)
  /-- A table that stands in one place and takes no more entries. -/
  | inline (entries : List (Text × TomlValue))
  /-- A table that may take more entries. -/
  | table (origin : TableOrigin) (entries : List (Text × TomlValue))
  /-- Tables that were each opened by a header of their own, the latest first. -/
  | tables (latest : List (List (Text × TomlValue)))

/-- A table with how it was opened. -/
structure TomlTable where
  /-- How the table was opened. -/
  origin : TableOrigin := .header
  /-- The entries. -/
  entries : List (Text × TomlValue) := []

namespace TomlTable

/-- The value under a key. -/
def find? (key : Text) : List (Text × TomlValue) → Option TomlValue
  | [] => none
  | (name, value) :: rest => if name = key then some value else find? key rest

/-- The entries with a value under a key. -/
def put (key : Text) (value : TomlValue) : List (Text × TomlValue) → List (Text × TomlValue)
  | [] => [(key, value)]
  | (name, held) :: rest =>
    if name = key then (key, value) :: rest else (name, held) :: put key value rest

/-- Change the table at the end of a path, which opens the tables that are missing on the way.
A dotted path must not go through a table that has a header of its own. -/
def within (opening : TableOrigin) (f : TomlTable → Option TomlTable) :
    List Text → TomlTable → Option TomlTable
  | [], table => f table
  | key :: path, table =>
    let store (value : TomlValue) : TomlTable :=
      { table with entries := put key value table.entries }
    let enter (child : TomlTable) : Option TomlTable :=
      (within opening f path child).map fun child => store (.table child.origin child.entries)
    match find? key table.entries with
    | none => enter { origin := opening }
    | some (.table origin entries) =>
      if opening = .dotted ∧ origin = .header then none else enter { origin, entries }
    | some (.tables (last :: earlier)) =>
      (within opening f path { entries := last }).map fun child =>
        store (.tables (child.entries :: earlier))
    | some _ => none

/-- The table with a value under a new key. -/
def add (key : Text) (value : TomlValue) (table : TomlTable) : Option TomlTable :=
  if (find? key table.entries).isSome then none
  else some { table with entries := put key value table.entries }

/-- The table with a value at the end of a dotted key. -/
def insert (path : List Text) (key : Text) (value : TomlValue) (table : TomlTable) :
    Option TomlTable :=
  within .dotted (fun inner =>
    if inner.origin = .dotted ∨ path.isEmpty then inner.add key value else none) path table

/-- The table with a further table opened by its header. -/
def header (path : List Text) (key : Text) : TomlTable → Option TomlTable :=
  within .passed (fun parent =>
    match find? key parent.entries with
    | none => some { parent with entries := put key (.table .header []) parent.entries }
    | some (.table .passed entries) =>
      some { parent with entries := put key (.table .header entries) parent.entries }
    | some _ => none) path

/-- The table with a further table at the end of an array of tables, opened by its header. -/
def arrayHeader (path : List Text) (key : Text) : TomlTable → Option TomlTable :=
  within .passed (fun parent =>
    match find? key parent.entries with
    | none => some { parent with entries := put key (.tables [[]]) parent.entries }
    | some (.tables latest) =>
      some { parent with entries := put key (.tables ([] :: latest)) parent.entries }
    | some _ => none) path

end TomlTable

namespace TomlReader

/-- The levels of nesting that values and keys stay below. -/
def deepest : Nat := 80

/-- Take one part of a key. -/
def simpleKey : TomlReader Text := do
  match ← peek? with
  | some '"' => discard next; basicString
  | some '\'' => discard next; literalString
  | _ => someRun fun c => Text.isLetter c || Text.isDigit c || c == '-' || c == '_'

/-- Take a key: the path to its table and its last part. -/
def key : TomlReader (List Text × Text) := do
  blanks
  let first ← simpleKey
  blanks
  let more ← collect do
    if ← piece? "." then
      blanks
      let part ← simpleKey
      blanks
      return some part
    else return none
  require (more.length + 1 < deepest)
  match more.reverse with
  | [] => return ([], first)
  | last :: middle => return (first :: middle.reverse, last)

/-- Take the rest of an array after its bracket, given how an item is taken. -/
def items (item : TomlReader TomlValue) : TomlReader (List TomlValue) :=
  collect do
    filler
    if ← piece? "]" then return none
    let value ← item
    filler
    unless ← piece? "," do require ((← peek?) == some ']')
    return some value

/-- Take a key with its value, given how a value is taken. -/
def member (value : TomlReader TomlValue) : TomlReader ((List Text × Text) × TomlValue) := do
  let path ← key
  mark '='
  blanks
  return (path, ← value)

/-- Take the rest of an inline table after its brace, given how a value is taken. -/
def inlineTable (value : TomlReader TomlValue) : TomlReader TomlTable := do
  blanks
  if ← piece? "\x7d" then return {}
  let first ← member value
  blanks
  let more ← collect do
    if ← piece? "," then
      let entry ← member value
      blanks
      return some entry
    else
      mark '\x7d'
      return none
  let insert (table : TomlTable) (entry : (List Text × Text) × TomlValue) : Option TomlTable :=
    table.insert entry.1.1 entry.1.2 entry.2
  StateT.lift ((first :: more).foldlM insert {})

/-- Take a value with nothing nested in it. -/
def plainValue : TomlReader TomlValue := do
  match ← peek? with
  | some '"' | some '\'' => TomlValue.string <$> string
  | some 't' => piece "true"; return .bool true
  | some 'f' => piece "false"; return .bool false
  | _ =>
    (do dateTime; return .dateTime) <|> (do float; return .float) <|>
      (TomlValue.integer <$> integer)

/-- Take a value with so many levels of nesting at most. -/
def value : Nat → TomlReader TomlValue
  | 0 => plainValue
  | levels + 1 => do
    if ← piece? "[" then return .array (← items (value levels))
    if ← piece? "\x7b" then return .inline (← inlineTable (value levels)).entries
    plainValue

end TomlReader

end Keyfob
