import Keyfob.Session.Dialog

/-!
# Sessions

Each link has a session of its own, so that a dialog on one link never changes what a line
means on another. What a line asks for is decided by `LineRequest.ofLine`; here it is done.
-/
namespace Keyfob

/-- The number of the firmware's version. -/
def firmwareVersion : Text := "0.1.0"

namespace Command

/-- The lines that describe the commands of every link. -/
def commonHelp : List Text := [
  "OK: Commands:",
  "  HELP - show this list",
  "  ABOUT - firmware and storage info",
  "  PWUPDATE - update passwords (requires login auth)",
  "  RETRIEVEPW - retrieve stored passwords (requires login auth)",
  "  CHANGELOGIN - change the 4-digit login code"]

/-- The lines that describe the commands of a wireless link. -/
def wirelessHelp : List Text := [
  "  TYPE:text - type text on connected PC",
  "  KEY:enter - send key to PC (KEY:ctrl+c for combos)",
  "  MOUSE:MOVE_REL:10,0 - mouse action",
  "  GAMEPAD:PRESS A - gamepad action",
  "  RECORD:name / STOPRECORD - record live actions",
  "  PLAY:name - play a macro file",
  "  LIST - list macro files",
  "  VIEW:name - show a macro file",
  "  SAVE_MACRO:name - upload a macro, empty line ends"]

/-- The line at the end of every description of commands. -/
def usage : Text := "Usage: send command, then follow prompts from device"

/-- The lines that describe the commands of a kind of link. -/
def helpLines (kind : LinkKind) : List Text :=
  commonHelp ++ (if kind.isWireless then wirelessHelp else []) ++ [usage]

/-- The lines that describe the device. -/
def aboutLines {δ κ φ : Type} [KeyValueStore κ] (kind : LinkKind) (core : Core δ κ φ) :
    List Text := [
  "OK: PWDongle firmware v" ++ firmwareVersion,
  "Device: " ++ core.settings.deviceName,
  "Transport: " ++ kind.name,
  "Stored credentials: " ++ Text.ofNat core.credentials.list.length,
  "Login code: **** (masked)",
  if (AccessCodes.stored? core.store).isSome then "Persisted: Yes" else "Persisted: No"]

end Command

/-- The reply that tells of a recording that was stopped. -/
def Recorder.stoppedReply (stopped : Text × Nat) : Text :=
  "OK: Recording saved to " ++ stopped.1 ++ " (" ++ Text.ofNat stopped.2 ++ "s)"

namespace Handling

variable {δ κ φ ρ : Type} [Device δ] [KeyValueStore κ] [FileStore φ] [ReplyPort ρ]

/-- The reply where there is no place for files. -/
def noCard : Text := "ERROR: SD card not available"

/-- Do something with the files, or reply that there is no place for them. -/
def withFiles (f : φ → Handling δ κ φ ρ Unit) : Handling δ κ φ ρ Unit := do
  match ← look fun core => core.files with
  | some files => f files
  | none => reply noCard

/-- Write to the files, or fail to. -/
def write (f : Core δ κ φ → φ → Except FileError Unit × Recorder × φ) (files : φ) :
    Handling δ κ φ ρ (Except FileError Unit) :=
  attempt fun core =>
    let (result, recorder, files) := f core files
    (result, { core with recorder := recorder, files := some files })

/-- Stop the recording that runs, if one does. -/
def stopRecording : Handling δ κ φ ρ (Option (Text × Nat)) :=
  attempt fun core =>
    let (stopped, recorder) := core.recorder.stop core.now
    (stopped, { core with recorder := recorder })

/-- Do something with the file of a name. -/
def useFile (command : FileCommand) (file : Text) (files : φ) : Handling δ κ φ ρ Unit := do
  match command with
  | .record =>
    if let some stopped ← stopRecording then reply (Recorder.stoppedReply stopped)
    match ← write (fun core files => core.recorder.start core.now file files) files with
    | .ok () => reply ("OK: Recording started to " ++ file)
    | .error _ => reply "ERROR: Cannot create file on SD card"
  | .play =>
    if FileStore.holds file files then
      reply ("OK: Playing " ++ file)
      share (.map .ofPlayback) fun core =>
        let (result, player, macros, device) :=
          core.player.playFile files file core.macros core.device
        (result.map fun _ => (), { core with player := player, macros := macros, device := device })
      reply "OK: Playback complete"
    else reply "ERROR: File not found"
  | .view =>
    match FileStore.read file files with
    | .ok bytes =>
      replyAll (Text.lines (Text.decode bytes))
      reply "OK: End of file"
    | .error (.notFound _) => reply "ERROR: File not found"
    | .error _ => reply "ERROR: Cannot read SD card"
  | .save =>
    reply "OK: Ready to receive macro. Send empty line to finish."
    become (.collecting file [])

/-- List the macro files. -/
def listFiles : Handling δ κ φ ρ Unit :=
  withFiles fun files => do
    match FileStore.listing files with
    | .ok names =>
      replyAll (names.map fun name => "FILE: " ++ name)
      reply ("OK: " ++ Text.ofNat names.length ++ " files")
    | .error (.error _) => reply "ERROR: Cannot read SD card"
    | .error (.crash crash) => throw (.crash crash)

/-- Obey a command, given with the line that it came in. -/
def obey (kind : LinkKind) (line : Line) : Command → Handling δ κ φ ρ Unit
  | .help => replyAll (Command.helpLines kind)
  | .about => do replyAll (← look (Command.aboutLines kind))
  | .ask question => ask question
  | .stopRecording => do
    match ← stopRecording with
    | some stopped => reply (Recorder.stoppedReply stopped)
    | none => reply "ERROR: Not currently recording"
  | .listFiles => listFiles
  | .file command name =>
    match FileName.ofUser? name with
    | none => reply "ERROR: Invalid filename"
    | some file => withFiles (useFile command file)
  | .noFile => reply "ERROR: Missing filename"
  | .relay => do
    runMacros fun macros device => macros.run line.text device
    if line.crlf then perform (Action.tap ⟨0, Usage.enter⟩)
  | .unknown => reply "ERR: Unknown command"

/-- Act on the host at once, and record the action where a recording runs. An action that
cannot be recorded counts all the same. -/
def act (directive : Directive) (done : Text) : Handling δ κ φ ρ Unit := do
  runMacros fun macros device => macros.runDirective directive device
  if let some files ← look fun core => core.files then
    discard (write (fun core files => core.recorder.record core.now directive files) files)
  reply done

/-- Save a macro that was collected. -/
def saveMacro (file content : Text) : Handling δ κ φ ρ Unit :=
  withFiles fun files => do
    let save (core : Core δ κ φ) (files : φ) : Except FileError Unit × Recorder × φ :=
      let (result, files) := FileStore.write file content.utf8 files
      (result, core.recorder, files)
    match ← write save files with
    | .ok () =>
      reply ("OK: Macro saved to " ++ file ++ " (" ++ Text.ofNat content.byteLength ++ " bytes)")
    | .error _ => reply "ERROR: Cannot create file on SD card"

/-- Do what a line asks for. -/
def fulfil (kind : LinkKind) (line : Line) : LineRequest → Handling δ κ φ ρ Unit
  | .collect file content => become (.collecting file content)
  | .finish file content => do
    become .idle
    saveMacro file content
  | .nothing => pure ()
  | .act directive done => act directive done
  | .answer question t => answer question t
  | .obey command => do
    become .idle
    obey kind line command

end Handling

/-- The session of a link. -/
structure Session where
  /-- The kind of link. -/
  kind : LinkKind
  /-- What the session waits for. -/
  state : SessionState := .idle
deriving DecidableEq

namespace Session

variable {δ κ φ ρ : Type} [Device δ] [KeyValueStore κ] [FileStore φ] [ReplyPort ρ]

/-- Whether no dialog is in progress. -/
def isIdle (session : Session) : Bool := session.state = .idle

/-- The session with its dialog dropped. -/
def abort (session : Session) : Session := { session with state := .idle }

/-- Handle one line. -/
def handle (session : Session) (line : Line) (core : Core δ κ φ) (port : ρ) :
    Except (Fault SessionError) Unit × Session × Core δ κ φ × ρ :=
  let request :=
    LineRequest.ofLine session.kind core.settings.dualRelay session.state line
  let (result, exchange) :=
    (Handling.fulfil session.kind line request).run ⟨session.state, core, port⟩
  (result, { session with state := exchange.state }, exchange.core, exchange.port)

end Session

end Keyfob
