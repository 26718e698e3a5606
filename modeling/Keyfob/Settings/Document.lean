import Keyfob.Settings
import Keyfob.Text.Utf8
import Keyfob.Toml.Document
import Keyfob.Toml.Quoted

/-!
# Settings as a TOML text

A settings file may name any of the settings and keeps the others as they are by default; what
it names besides is passed over. `Settings.write` names them all.
-/
namespace Keyfob.Settings

/-- The setting under a key, if it can be read, by default where there is none. -/
def setting? {α : Type} (entries : List (Text × TomlValue)) (key : Text) (default : α)
    (read : TomlValue → Option α) : Option α :=
  match TomlTable.find? key entries with
  | none => some default
  | some value => read value

/-- A text. -/
def text? : TomlValue → Option Text
  | .string t => some t
  | _ => none

/-- A truth value. -/
def bool? : TomlValue → Option Bool
  | .bool value => some value
  | _ => none

/-- A number that is not negative. -/
def count? : TomlValue → Option Nat
  | .integer n => if 0 ≤ n then some n.toInt.toNat else none
  | _ => none

/-- A number of milliseconds. -/
def duration? (value : TomlValue) : Option UInt32 := do
  let n ← count? value
  if n < UInt32.size then some (UInt32.ofNat n) else none

/-- A code. -/
def pin? (value : TomlValue) : Option Pin := text? value >>= Pin.strict?

/-- The keys of the codes in the order in which they are written. -/
def codeKeys : List Text := ["cdc", "ble", "file", "msc"]

/-- The codes in a list of entries. -/
def codesIn? (default : AccessCodes) (entries : List (Text × TomlValue)) : Option AccessCodes := do
  return { default with
    cdc := ← setting? entries "cdc" default.cdc pin?
    ble := ← setting? entries "ble" default.ble pin?
    file := ← setting? entries "file" default.file pin?
    msc := ← setting? entries "msc" default.msc pin? }

/-- The codes, which a table gives by their keys and an array in their order. A date gives
none. -/
def codes? (default : AccessCodes) : TomlValue → Option AccessCodes
  | .table _ entries | .inline entries => codesIn? default entries
  | .array items => codesIn? default (codeKeys.zip items)
  | .dateTime => some default
  | _ => none

/-- The settings that a TOML text chooses, if it is one and each setting is of its kind. -/
def parse? (default : Settings) (t : Text) : Option Settings := do
  let entries ← TomlDocument.parse? t
  let read {α : Type} := @setting? α entries
  return {
    deviceName := ← read "device_name" default.deviceName text?
    storePath := ← read "store_path" default.storePath text?
    macroDirectory := ← read "macro_dir" default.macroDirectory text?
    dualRelay := ← read "dual_relay" default.dualRelay bool?
    typingSpeed := ← read "typing_speed_ms" default.typingSpeed duration?
    filePacing := ← read "file_pacing_ms" default.filePacing duration?
    wirelessCap := ← read "ble_drain_cap" default.wirelessCap count?
    wirelessChunk := ← read "ble_chunk_size" default.wirelessChunk count?
    scriptBudget := ← read "script_step_budget" default.scriptBudget count?
    wirelessAddress := ← read "ble_addr" default.wirelessAddress text?
    codes := ← read "codes" default.codes (codes? default.codes) }

/-- The line of a key and its value. -/
def line (key value : Text) : Text := key ++ " = " ++ value ++ "\n"

/-- The TOML text that chooses these settings. -/
def write (settings : Settings) : Text :=
  line "device_name" (TomlString.write settings.deviceName) ++
  line "store_path" (TomlString.write settings.storePath) ++
  line "macro_dir" (TomlString.write settings.macroDirectory) ++
  line "dual_relay" (if settings.dualRelay then "true" else "false") ++
  line "typing_speed_ms" (Text.ofNat settings.typingSpeed.toNat) ++
  line "file_pacing_ms" (Text.ofNat settings.filePacing.toNat) ++
  line "ble_drain_cap" (Text.ofNat settings.wirelessCap) ++
  line "ble_chunk_size" (Text.ofNat settings.wirelessChunk) ++
  line "script_step_budget" (Text.ofNat settings.scriptBudget) ++
  line "ble_addr" (TomlString.write settings.wirelessAddress) ++
  "\n[codes]\n" ++
  line "cdc" (TomlString.write settings.codes.cdc.text) ++
  line "ble" (TomlString.write settings.codes.ble.text) ++
  line "file" (TomlString.write settings.codes.file.text) ++
  line "msc" (TomlString.write settings.codes.msc.text)

/-- Why settings cannot be loaded. -/
inductive LoadError where
  /-- The file cannot be read, or is not text. -/
  | unreadable
  /-- The text does not choose settings. -/
  | malformed
deriving DecidableEq

/-- The settings that the bytes of a settings file choose. -/
def ofBytes (default : Settings) (bytes : List UInt8) : Except LoadError Settings :=
  match Text.decode? bytes with
  | none => .error .unreadable
  | some t =>
    match parse? default t with
    | none => .error .malformed
    | some settings => .ok settings

end Keyfob.Settings
