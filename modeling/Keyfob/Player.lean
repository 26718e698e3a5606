import Keyfob.Dialect
import Keyfob.Ducky
import Keyfob.Files.Basic
import Keyfob.Script.Machine

/-!
# Playing macro files

The player runs the content of a file in the dialect that it seems to be written in, or types a
file byte for byte. The macro engine is not the player's own: it also runs macro text that
arrives live.
-/
namespace Keyfob

/-- Why a file was not played to its end. -/
inductive PlaybackError where
  /-- The file could not be read. -/
  | file (error : FileError)
  /-- The device refused an action. -/
  | hid (error : HidError)
deriving DecidableEq

/-- What plays files. -/
structure Player where
  /-- What runs scripts. -/
  script : ScriptEngine := {}
  /-- What runs DuckyScript. -/
  ducky : Ducky := {}
  /-- The pause after each byte of a file that is typed byte for byte, in milliseconds. -/
  pacing : UInt32 := 3
deriving DecidableEq

namespace Player

variable {δ φ : Type} [Device δ] [FileStore φ]

/-- Play a text: the dialect that it was played in. -/
def play (player : Player) (content : Text) (engine : MacroEngine) (device : δ) :
    Except (Fault HidError) Dialect × Player × MacroEngine × δ :=
  match Dialect.detect content with
  | .script =>
    let (result, script, engine, device) := player.script.run content engine device
    (result.map fun _ => .script, { player with script := script }, engine, device)
  | .ducky =>
    let (result, ducky, device) := player.ducky.run content device
    ((result.map fun _ => .ducky).mapError .error, { player with ducky := ducky }, engine, device)
  | .tokens =>
    let (result, engine, device) := engine.run content device
    ((result.map fun _ => .tokens).mapError .error, player, engine, device)

/-- Play a file, whose bytes are read as text. -/
def playFile (player : Player) (files : φ) (name : Text) (engine : MacroEngine) (device : δ) :
    Except (Fault PlaybackError) Dialect × Player × MacroEngine × δ :=
  match FileStore.read name files with
  | .error e => (.error (.error (.file e)), player, engine, device)
  | .ok bytes =>
    let (result, player, engine, device) := player.play (Text.decode bytes) engine device
    (result.mapError (Fault.map .hid), player, engine, device)

/-- Type a file byte for byte, each as the character of that code: the number of bytes. -/
def typeFile (player : Player) (files : φ) (name : Text) (device : δ) :
    Except PlaybackError Nat × δ :=
  match FileStore.read name files with
  | .error e => (.error (.file e), device)
  | .ok bytes =>
    let characters := bytes.map fun b => Char.ofNat b.toNat
    let (result, device) := performAll (Action.typeText player.pacing characters) device
    ((result.map fun () => bytes.length).mapError .hid, device)

end Player

end Keyfob
