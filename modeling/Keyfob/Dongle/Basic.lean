import Keyfob.Dongle.Port
import Keyfob.Dongle.Screen

/-!
# The dongle

One pass of the main loop (`Dongle.poll`) serves the wireless link up to its cap, then handles
every button press, then serves the serial link. The button works a pad on which a code is
entered. The primary code opens a menu of credentials, a second code turns the pad into one
that names files, and three codes ask for another mode at the next start.
-/
namespace Keyfob

/-- A press of the button. -/
inductive ButtonPress where
  /-- A short press. -/
  | short
  /-- A long press. -/
  | long
deriving DecidableEq

/-- What the button works. -/
inductive Mode where
  /-- The pad on which a code is entered. -/
  | code (pad : PinPad)
  /-- The pad on which the number of a file is entered. -/
  | file (pad : PinPad)
  /-- The menu of credentials. -/
  | menu (selected : Nat)
  /-- Nothing: the device waits to start in another mode. -/
  | restart (mode : BootMode)
deriving DecidableEq

/-- The line of status that shows the pad, if there is one. -/
def Mode.padStatus? : Mode → Option Text
  | code pad => some ("Enter code: " ++ pad.render)
  | file pad => some ("Enter file number: " ++ pad.render)
  | menu _ => none
  | restart _ => none

/-- The whole device. -/
structure Dongle (δ κ φ : Type) where
  /-- What all front ends share. -/
  core : Core δ κ φ
  /-- The serial link, if there is one. -/
  serial : Option Port := none
  /-- The wireless link, if there is one. -/
  wireless : Option Port := none
  /-- What the button works. -/
  mode : Mode := .code .empty
  /-- The presses that wait to be handled. -/
  presses : List ButtonPress := []
  /-- The screen, if there is one. -/
  screen : Option Screen := none

namespace Dongle

variable {δ κ φ : Type} [Device δ] [KeyValueStore κ] [FileStore φ]

/-- Start a device on a store: the device, or why its login code could not be stored, and the
store. -/
def start (settings : Settings) (device : δ) (store : κ) (files : Option φ) :
    Except StoreError (Dongle δ κ φ) × κ :=
  match settings.codes.loadPrimary store with
  | (.error e, _, store) => (.error e, store)
  | (.ok (), codes, store) =>
    (.ok { core := Core.ofSettings settings codes device store files }, store)

/-- Show a line of status. -/
def status (t : Text) (dongle : Dongle δ κ φ) : Dongle δ κ φ :=
  { dongle with screen := dongle.screen.map (Screen.status t) }

/-- Show the pad, if there is one. -/
def showPad (dongle : Dongle δ κ φ) : Dongle δ κ φ :=
  match dongle.mode.padStatus? with
  | some t => dongle.status t
  | none => dongle

/-- Draw a menu of credentials. -/
def draw (entries : List Text) (selected : Nat) (dongle : Dongle δ κ φ) : Dongle δ κ φ :=
  { dongle with screen := dongle.screen.map (Screen.draw ⟨entries, selected⟩) }

/-- The device with a screen, which shows the pad at once. -/
def withScreen (dongle : Dongle δ κ φ) (screen : Screen) : Dongle δ κ φ :=
  showPad { dongle with screen := some screen }

/-- The device with a serial link. -/
def withSerial (dongle : Dongle δ κ φ) (channel : Channel) : Dongle δ κ φ :=
  { dongle with serial := some { link := { channel } } }

/-- The device with a wireless link, whose writes are limited as the settings say. -/
def withWireless (dongle : Dongle δ κ φ) (channel : Channel) : Dongle δ κ φ :=
  let chunkSize := ChunkSize.ofNat? dongle.core.settings.wirelessChunk
  { dongle with wireless := some { link := { channel, chunkSize } } }

/-- Why lines failed on the links. -/
def failures (dongle : Dongle δ κ φ) : List SessionError :=
  [dongle.serial, dongle.wireless].flatMap fun port => (port.map Port.failures).getD []

/-- The device with what its links wrote forgotten. -/
def drained (dongle : Dongle δ κ φ) : Dongle δ κ φ :=
  { dongle with
    serial := dongle.serial.map Port.drained, wireless := dongle.wireless.map Port.drained }

/-- Carry out actions; where one is refused, let go of everything. -/
def perform (actions : List Action) (dongle : Dongle δ κ φ) :
    Except HidError Unit × Dongle δ κ φ :=
  match performAll actions dongle.core.device with
  | (.ok (), device) => (.ok (), { dongle with core := { dongle.core with device := device } })
  | (.error e, device) =>
    (.error e, { dongle with core :=
      { dongle.core with device := (Device.perform .releaseAll device).2 } })

/-- Type the file of a number. -/
def typeFile (pin : Pin) (dongle : Dongle δ κ φ) : Dongle δ κ φ :=
  match dongle.core.files with
  | none => dongle.status "SD card not available"
  | some files =>
    let name := pin.text ++ FileName.ending
    match dongle.core.player.typeFile files name dongle.core.device with
    | (.ok _, device) =>
      status "File typed" { dongle with core := { dongle.core with device := device } }
    | (.error (.file _), device) =>
      status "Typing failed" { dongle with core := { dongle.core with device := device } }
    | (.error (.hid _), device) =>
      status "Typing failed" { dongle with core :=
        { dongle.core with device := (Device.perform .releaseAll device).2 } }

/-- Start over with entering a code. -/
def askCode (dongle : Dongle δ κ φ) : Dongle δ κ φ := showPad { dongle with mode := .code .empty }

/-- Do what an entered code asks for. -/
def enter (pin : Pin) (dongle : Dongle δ κ φ) : Dongle δ κ φ :=
  match dongle.core.codes.classify pin with
  | .boot mode =>
    match mode.request dongle.core.store with
    | (.ok (), store) =>
      status ("Switching to " ++ mode.name ++ " mode. Wait...")
        { dongle with core := { dongle.core with store := store }, mode := .restart mode }
    | (.error _, store) =>
      askCode (status "Storage error" { dongle with core := { dongle.core with store := store } })
  | .files => showPad { dongle with mode := .file .empty }
  | .primary =>
    let credentials := Credentials.load dongle.core.store
    draw credentials.names 0
      { dongle with core := { dongle.core with credentials := credentials }, mode := .menu 0 }
  | .rejected => askCode (dongle.status "WRONG CODE!")

/-- Type the secret of the credential at a place and the Enter key. -/
def send (place : Nat) (dongle : Dongle δ κ φ) : Dongle δ κ φ :=
  match dongle.core.credentials.list[place]? with
  | none => dongle
  | some credential =>
    let actions := Action.typeText dongle.core.macros.defaultSpeed credential.secret ++
      Action.tap ⟨0, Usage.enter⟩
    match dongle.perform actions with
    | (.ok (), dongle) => dongle.status ("Sent: " ++ credential.name)
    | (.error _, dongle) => dongle.status "Send failed"

/-- Handle a press in the menu. -/
def pressMenu (selected : Nat) (dongle : Dongle δ κ φ) : ButtonPress → Dongle δ κ φ
  | .short =>
    let names := dongle.core.credentials.names
    let next := if names.isEmpty then selected else (selected + 1) % names.length
    draw names next { dongle with mode := .menu next }
  | .long => (dongle.send selected).draw dongle.core.credentials.names selected

/-- Handle one press. -/
def press (dongle : Dongle δ κ φ) (press : ButtonPress) : Dongle δ κ φ :=
  match dongle.mode, press with
  | .code pad, .short => showPad { dongle with mode := .code pad.raise }
  | .code pad, .long =>
    match pad.accept with
    | (none, pad) => showPad { dongle with mode := .code pad }
    | (some pin, pad) => enter pin { dongle with mode := .code pad }
  | .file pad, .short => showPad { dongle with mode := .file pad.raise }
  | .file pad, .long =>
    match pad.accept with
    | (none, pad) => showPad { dongle with mode := .file pad }
    | (some pin, pad) => showPad (typeFile pin { dongle with mode := .file pad })
  | .menu selected, press => dongle.pressMenu selected press
  | .restart _, _ => dongle

/-- Handle every press that waits. -/
def handlePresses (dongle : Dongle δ κ φ) : Dongle δ κ φ :=
  dongle.presses.foldl press { dongle with presses := [] }

/-- Serve the wireless link up to its cap, if there is one. -/
def serveWireless (dongle : Dongle δ κ φ) : Except (Fault LinkError) Unit × Dongle δ κ φ :=
  match dongle.wireless with
  | none => (.ok (), dongle)
  | some port =>
    let (result, port, core) := port.serve (some dongle.core.settings.wirelessCap) dongle.core
    (result, { dongle with wireless := some port, core := core })

/-- Serve the serial link, if there is one. -/
def serveSerial (dongle : Dongle δ κ φ) : Except (Fault LinkError) Unit × Dongle δ κ φ :=
  match dongle.serial with
  | none => (.ok (), dongle)
  | some port =>
    let (result, port, core) := port.serve none dongle.core
    (result, { dongle with serial := some port, core := core })

/-- The mode that the device waits to start in, if it does. -/
def restart? (dongle : Dongle δ κ φ) : Option BootMode :=
  match dongle.mode with
  | .restart mode => some mode
  | _ => none

/-- One pass of the main loop: the mode that the device waits to start in. A link that cannot
be read ends the pass. Where a line crashes, the pass does not end at all: the program stops, and
with it the device. -/
def poll (dongle : Dongle δ κ φ) :
    Except (Fault LinkError) (Option BootMode) × Dongle δ κ φ :=
  match dongle.serveWireless with
  | (.error e, dongle) => (.error e, dongle)
  | (.ok (), dongle) =>
    match dongle.handlePresses.serveSerial with
    | (.error e, dongle) => (.error e, dongle)
    | (.ok (), dongle) => (.ok dongle.restart?, dongle)

/-- The text that reports why a pass ended early. -/
def errorText (e : LinkError) : Text := "Transport error: " ++ e.message

end Dongle

end Keyfob
