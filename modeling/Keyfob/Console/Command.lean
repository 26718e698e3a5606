import Keyfob.Console.Arguments
import Keyfob.Console.Paint
import Keyfob.Dongle.Basic
import Keyfob.Expr.Condition
import Keyfob.Hid.Gadget
import Keyfob.Hid.Recording
import Keyfob.Host.Basic
import Keyfob.Settings.Document
import Keyfob.Store.Document

/-!
# Commands

What the commands do on a host and what they print. A command that fails prints nothing but its
failure, and one that crashes prints nothing. Rehearsals run on recording devices and on copies of
the store, so that they leave nothing behind.
-/
namespace Keyfob.Console

/-- What a command prints. -/
structure Printed where
  /-- The report. -/
  out : Text := []
  /-- What stands beside the report. -/
  remarks : Text := []
deriving DecidableEq

/-- Why a command failed. -/
structure Failure where
  /-- What failed. -/
  message : Text
  /-- What made it fail, if that is not all. -/
  cause : Option Text := none
deriving DecidableEq

/-- The text that reports a failure. -/
def Failure.text (failure : Failure) : Text :=
  "Error: " ++ failure.message ++ "\n" ++
    match failure.cause with
    | some cause => "\nCaused by:\n    " ++ cause ++ "\n"
    | none => []

/-- The line that gives the version under a title. -/
def versionLine (title : Text) : Text := title ++ " " ++ firmwareVersion ++ "\n"

/-- Lines one under another, each with its end. -/
def page (lines : List Text) : Text := lines.flatMap fun line => line ++ "\n"

section Check

/-- The colour in which an action is shown. -/
def paintOf : Action → Paint
  | .delay _ => .grey
  | .type _ => .green
  | .press _ | .release _ | .releaseAll => .yellow
  | _ => .magenta

/-- The line of an action in a rehearsal. -/
def actionLine (action : Action) (place : Nat) : Text :=
  "  " ++ padLeft 4 (Text.ofNat place) ++ ": " ++ (paintOf action).apply action.text

/-- A line of a report: what it is about, and what holds. -/
def fact (label value : Text) : Text := bold label ++ " " ++ value

/-- The report of a rehearsal. -/
def rehearsal (file : Text) (dialect : Dialect) (actions : List Action) (delays : Bool) : Text :=
  let shown := if delays then actions else Action.withoutDelays actions
  let typed := Action.typed actions
  let motion := Action.motion actions
  page (
    [fact "File:" (file ++ " (" ++ Paint.cyan.apply dialect.name ++ ")")] ++
    shown.mapIdx (fun place action => actionLine action place) ++
    [[], fact "Actions:" (Text.ofNat (Action.withoutDelays actions).length),
      fact "Total delay:" (Text.ofNat (Action.waited actions) ++ " ms")] ++
    (if typed.isEmpty then [] else [fact "Typed text:" (Text.quoted typed)]) ++
    (if motion.x = 0 ∧ motion.y = 0 then []
      else [fact "Mouse motion:" (Text.ofSigned motion.x ++ " " ++ Text.ofSigned motion.y)]))

/-- What plays files under some settings. -/
def playerOf (settings : Settings) : Player :=
  { script := { budget := settings.scriptBudget }, pacing := settings.filePacing }

/-- Rehearse a text: the dialect that it is played in, and the actions. -/
def rehearse (settings : Settings) (content : Text) :
    Except (Fault HidError) (Dialect × List Action) :=
  let engine := MacroEngine.ofSpeed settings.typingSpeed
  let (result, _, _, recording) := (playerOf settings).play content engine ({} : Recording)
  result.map fun dialect => (dialect, recording.actions)

end Check

section Store

/-- Whether a stored value is shown only on request. -/
def isSecret (space key : Text) : Bool :=
  (space == Credential.space && Text.beginsWith key "password_") || space == AccessCodes.space

/-- The line of a stored value. -/
def valueLine (secrets : Bool) (space key : Text) (value : StoreValue) : Text :=
  let shown := if !secrets && isSecret space key then Paint.grey.apply "****"
    else Paint.white.apply value.text
  "  " ++ padRight 12 key ++ " = " ++ shown

/-- The listing of a store, which is kept under a path. -/
def listing (path : Text) (contents : Namespaces) (secrets : Bool) : Text :=
  if contents.entries.isEmpty then page ["Store is empty (" ++ path ++ ")"]
  else
    page (contents.entries.flatMap fun (space, entries) =>
      boldIn .cyan ("[" ++ space ++ "]") ::
        entries.entries.map fun (key, value) => valueLine secrets space key value)

end Store

section Unlock

/-- The presses that enter a code. -/
def pressesOf (pin : Pin) : List ButtonPress :=
  pin.digits.toList.flatMap fun digit => List.replicate digit.val .short ++ [.long]

/-- The lines of a menu. -/
def menuLines (menu : Option Menu) : List Text :=
  let entries := (menu.map Menu.entries).getD []
  if entries.isEmpty then ["  (no stored credentials)"]
  else entries.mapIdx fun place name =>
    "  " ++ padLeft 2 (Text.ofNat (place + 1)) ++ ". " ++ name

/-- The lines that say what the button works. -/
def modeLines (menu : Option Menu) : Mode → List Text
  | .menu _ => boldIn .green "Unlocked" :: menuLines menu
  | .file _ => [boldIn .cyan "File mode"]
  | .restart mode =>
    [boldIn .yellow "Restart:" ++ " " ++ mode.name ++ " mode on next boot (not written)"]
  | .code _ => [boldIn .red "Rejected"]

/-- What entering a code leads to on a device with some contents in its store. -/
def unlocking (settings : Settings) (contents : Namespaces) (pin : Pin) : Text :=
  let store : MemoryStore := { held := contents }
  let files : Option MemoryFiles := none
  match Dongle.start settings ({} : Recording) store files with
  | (.error _, _) => []
  | (.ok dongle, _) =>
    let dongle := dongle.withScreen {}
    let (_, dongle) := Dongle.poll { dongle with presses := pressesOf pin }
    let screen := dongle.screen.getD {}
    let status := screen.latest.head?.toList.map (fact "Display:")
    page (status ++ modeLines screen.menu dongle.mode)

end Unlock

section Eval

/-- The value of an expression or a condition, as a script would see it. -/
def evaluation (expr : Text) (condition : Bool) (vars : List (Text × Int32)) : Printed :=
  let value (name : Text) : Int32 := (vars.reverse.lookup name).getD 0
  if condition then
    { out := page [if Condition.evaluate value expr then "true" else "false"] }
  else
    match Expr.tryEvaluate value expr with
    | .ok n => { out := page [Text.ofInt n.toInt] }
    | .error e => { out := page ["0"], remarks := page ["Parse error: " ++ e.message] }

end Eval

variable {m : Type → Type} {ω : Type} [Monad m] [Host m ω]

/-- What runs on a host and may fail, or crash. -/
abbrev Run (m : Type → Type) := ExceptT (Fault Failure) m

/-- Fail. -/
def fail {α : Type} (failure : Failure) : Run m α := throw (.error failure)

/-- A failure of the host, with the text that says what was done. -/
def failed {α : Type} (message : Text) (e : HostError) : Run m α :=
  fail { message := message, cause := some e.message }

/-- Go on with what the host gives, or fail with a text that says what was done. -/
def during {α : Type} (message : Text) (action : Run m (Except HostError α)) : Run m α := do
  match ← action with
  | .ok a => return a
  | .error e => failed message e

/-- Load the settings from a file, the default ones where there is no file. -/
def loadSettings (default : Settings) (path : Text) : Run m Settings := do
  let message : Text := "loading config " ++ path
  match ← Host.read path with
  | .error .missing => return default
  | .error e => failed message e
  | .ok bytes =>
    match Settings.ofBytes default bytes with
    | .ok settings => return settings
    | .error .unreadable => fail { message := message, cause := some "the file is not text" }
    | .error .malformed => fail { message := message, cause := some "the settings are invalid" }

/-- Open the store, which is empty where there is no document. -/
def openStore (path : Text) : Run m DocumentStore := do
  let message : Text := "opening store " ++ path
  let bytes ← match ← Host.read path with
    | .error .missing => pure none
    | .error e => failed message e
    | .ok bytes => pure (some bytes)
  match DocumentStore.ofBytes bytes with
  | .ok store => return store
  | .error .io => fail { message := message, cause := some "the store is not text" }
  | .error .format => fail { message := message, cause := some "the store is corrupt" }

/-- Write the documents of a store's changes, each beside its place first and then moved
there. -/
def saveStore (path message : Text) (store : DocumentStore) : Run m Unit := do
  let beside := HostPath.withExtension "json.tmp" path
  for document in store.written.reverse do
    during message (Host.makeDirectory (HostPath.directory path))
    during message (Host.write beside document.utf8)
    during message (Host.move beside path)

/-- The code that a word is. -/
def pinOf (t : Text) : Run m Pin :=
  match Pin.strict? t with
  | some pin => return pin
  | none => fail { message := Pin.strictMessage t }

/-- The open endpoints of a gadget. -/
structure Endpoints (ω : Type) where
  /-- The keyboard. -/
  keyboard : ω
  /-- The mouse, if it is there. -/
  mouse : Option ω := none
  /-- The media keys, if they are there. -/
  consumer : Option ω := none
  /-- The gamepad, if it is there. -/
  gamepad : Option ω := none

namespace Endpoints

/-- The gadget that has these endpoints. -/
def gadget (endpoints : Endpoints ω) : Gadget :=
  .having endpoints.mouse.isSome endpoints.consumer.isSome endpoints.gamepad.isSome

/-- Open an endpoint that may be absent. -/
def optional? (message : Text) : Option Text → Run m (Option ω)
  | none => return none
  | some path => do
    match ← Host.openEndpoint path with
    | .ok endpoint => return some endpoint
    | .error .directory => failed message .directory
    | .error (.other cause) => failed message (.other cause)
    | .error _ => return none

/-- Open the endpoints under some paths. Only the keyboard must be there. -/
def ofPaths (paths : GadgetPaths) : Run m (Endpoints ω) := do
  let message : Text := "opening gadget endpoint " ++ paths.keyboard
  let keyboard ← during message (Host.openEndpoint paths.keyboard)
  let mouse ← optional? message paths.mouse
  let consumer ← optional? message paths.consumer
  let gamepad ← optional? message paths.gamepad
  return { keyboard, mouse, consumer, gamepad }

/-- Send a report. -/
def send (report : List UInt8) (endpoint : ω) : Run m Unit := do
  match ← Host.send endpoint report with
  | .ok () => return
  | .error e => failed (HidError.write e.message).message e

/-- Send the reports that an optional endpoint of a gadget was given. -/
def sendOptional (given : Option Endpoint) (endpoint : Option ω) : Run m Unit := do
  let reports := (given.map fun endpoint => endpoint.latest.reverse).getD []
  for report in reports do
    for endpoint in endpoint do
      send report endpoint

/-- Carry out one action on a gadget and send its reports. -/
def carryOut (endpoints : Endpoints ω) (gadget : Gadget) (action : Action) : Run m Gadget := do
  if let .delay ms := action then Host.wait ms
  let (_, gadget) := gadget.act action
  sendOptional (some gadget.keyboard) (some endpoints.keyboard)
  sendOptional gadget.mouse endpoints.mouse
  sendOptional gadget.consumer endpoints.consumer
  sendOptional gadget.gamepad endpoints.gamepad
  return gadget.drained

end Endpoints

/-- Play the file of a path, or type it byte for byte, on a device that records: what to print
unless it crashes, and the actions. -/
def playOn (settings : Settings) (raw : Bool) (name : Text)
    (found : Except HostError (List UInt8)) (abilities : Capabilities) :
    Run m (Except Crash Printed × List Action) := do
  let files : DirectoryFiles := match found with
    | .ok bytes => ⟨some ((∅ : Table DirectoryEntry).insert name (.file bytes))⟩
    | .error .missing => {}
    | .error _ => DirectoryFiles.makeDirectory {} name
  let refuse {α : Type} (e : PlaybackError) : Run m α :=
    match e, found with
    | .file .io, .error cause =>
      failed ("file I/O error: " ++ cause.message) cause
    | .file e, _ => fail { message := e.message?.getD [] }
    | .hid e, _ => fail { message := e.message }
  let recording : Recording := { abilities }
  if raw then
    match (playerOf settings).typeFile files name recording with
    | (.ok count, recording) =>
      let typed : Text := "Typed " ++ Text.ofNat count ++ " bytes from " ++ name
      return (.ok { out := page [typed] }, recording.actions)
    | (.error e, _) => refuse e
  else
    let engine := MacroEngine.ofSpeed settings.typingSpeed
    match (playerOf settings).playFile files name engine recording with
    | (.ok dialect, _, _, recording) =>
      let played : Text := "Played " ++ name ++ " as " ++ dialect.name
      return (.ok { out := page [played] }, recording.actions)
    | (.error (.error e), _) => refuse e
    | (.error (.crash crash), _, _, recording) => return (.error crash, recording.actions)

/-- Print what is there to print, or crash. -/
def settle : Except Crash Printed → Run m Printed
  | .ok printed => return printed
  | .error crash => throw (.crash crash)

/-- Play a file to where its actions go. -/
def play (settings : Settings) (file : Text) (sink : SinkKind) (paths : GadgetPaths)
    (raw : Bool) : Run m Printed := do
  let name ← match HostPath.fileName? file with
    | some name => pure name
    | none => fail { message := "not a file name: " ++ file }
  let directory := HostPath.directory file
  match ← Host.makeDirectory directory with
  | .ok () => pure ()
  | .error e => failed ("file I/O error: " ++ e.message) e
  let path := HostPath.inside directory name
  match sink with
  | .virtual =>
    fail { message := "uinput support not compiled in (rebuild with --features uinput)" }
  | .record =>
    settle (← playOn settings raw name (← Host.read path) Capabilities.everything).1
  | .gadget =>
    let endpoints ← Endpoints.ofPaths paths
    let gadget := endpoints.gadget
    let (result, actions) ← playOn settings raw name (← Host.read path) gadget.abilities
    discard (actions.foldlM endpoints.carryOut gadget)
    settle result

/-- Run what a command line asks for under some settings. -/
def perform (settings : Settings) : Request → Run m Printed
  | .play file sink paths raw => play settings file sink paths raw
  | .check file delays => do
    let message : Text := "reading " ++ file
    let bytes ← during message (Host.read file)
    match Text.decode? bytes with
    | none => fail { message := message, cause := some "the file is not text" }
    | some content =>
      match rehearse settings content with
      | .ok (dialect, actions) => return { out := rehearsal file dialect actions delays }
      | .error e => throw (e.map fun e => { message := e.message })
  | .list secrets => do
    let store ← openStore settings.storePath
    return { out := listing settings.storePath store.held secrets }
  | .clear space => do
    let store ← openStore settings.storePath
    let (_, store) := KeyValueStore.clear space store
    saveStore settings.storePath ("clearing namespace " ++ space) store
    return { out := page ["Cleared [" ++ space ++ "]"] }
  | .setPin t => do
    let pin ← pinOf t
    let store ← openStore settings.storePath
    let (_, _, store) := ({} : AccessCodes).setPrimary pin store
    saveStore settings.storePath "saving login code" store
    return { out := page ["Login code updated"] }
  | .eval expr condition vars => return evaluation expr condition vars
  | .unlock t => do
    let pin ← pinOf t
    let store ← openStore settings.storePath
    return { out := unlocking settings store.held pin }

/-- Where data and settings are kept where a command line does not say. -/
structure Places where
  /-- The directory for data. -/
  data : Text := "."
  /-- The directory for settings. -/
  config : Text := "."
deriving DecidableEq

/-- The settings file in its usual place. -/
def Places.settingsFile (places : Places) : Text :=
  places.config ++ "/pwdongle/config.toml"

/-- Run what a command line asks for. -/
def run (places : Places) (request : Request) (settingsFile : Option Text) : Run m Printed := do
  let path := settingsFile.getD places.settingsFile
  perform (← loadSettings (.inDirectory places.data) path) request

end Keyfob.Console
