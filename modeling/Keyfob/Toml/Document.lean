import Keyfob.Toml.Value

/-!
# TOML texts

A text is a sequence of lines: blank ones, headers that open a table, and keys with values for
the table of the last header. A value may go on over several lines.
-/
namespace Keyfob

/-- One line of a TOML text. -/
inductive TomlLine where
  /-- A blank line or a comment. -/
  | blank
  /-- The header of a table. -/
  | header (path : List Text) (key : Text)
  /-- The header of a table in an array of tables. -/
  | arrayHeader (path : List Text) (key : Text)
  /-- A key with its value. -/
  | member (path : List Text) (key : Text) (value : TomlValue)

namespace TomlReader

/-- Take a line, if there is one. -/
def line : TomlReader (Option TomlLine) := do
  blanks
  match ← peek? with
  | none => return none
  | some '#' | some '\n' | some '\r' => lineEnd; return some .blank
  | some '[' =>
    if ← piece? "[[" then
      let (path, key) ← key
      piece "]]"
      lineEnd
      return some (.arrayHeader path key)
    else
      mark '['
      let (path, key) ← key
      mark ']'
      lineEnd
      return some (.header path key)
  | some _ =>
    let ((path, key), value) ← member (value (deepest - 1))
    lineEnd
    return some (.member path key value)

end TomlReader

/-- A TOML text read so far: the whole table and the path to the table of the last header. -/
structure TomlDocument where
  /-- The whole table. -/
  root : TomlTable := {}
  /-- The path to the table of the last header. -/
  current : List Text := []

namespace TomlDocument

/-- Add a line. -/
def add (document : TomlDocument) : TomlLine → Option TomlDocument
  | .blank => some document
  | .header path key => do
    return { root := ← document.root.header path key, current := path ++ [key] }
  | .arrayHeader path key => do
    return { root := ← document.root.arrayHeader path key, current := path ++ [key] }
  | .member path key value => do
    let root ← document.root.within .passed (·.insert path key value) document.current
    return { document with root := root }

/-- The whole table of a text, if it is TOML. A byte order mark may stand first. -/
def parse? (t : Text) : Option (List (Text × TomlValue)) := do
  let t := (Text.after? ['\ufeff'] t).getD t
  let (lines, _) ← (TomlReader.collect TomlReader.line) t
  let document ← lines.foldlM add {}
  return document.root.entries

end TomlDocument

end Keyfob
