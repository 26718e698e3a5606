import Keyfob.Link.Channel
import Keyfob.Link.Line
import Keyfob.Macro.Directive
import Keyfob.Settings

/-!
# What a line asks for

A session reads each line by what it waits for, by its kind of link, and by one setting.
Reading a line (`LineRequest.ofLine`) does nothing yet, so it is decided here, before any effect,
which lines can act on the host, which are answers to a question, and which are data.
-/
namespace Keyfob

/-- A question that a session has asked. -/
inductive Question where
  /-- The login code, before the credentials are replaced. -/
  | codeForUpdate
  /-- The credentials that replace all others. -/
  | credentials
  /-- The login code, before the credentials are listed. -/
  | codeForListing
  /-- The login code, before it is changed. -/
  | oldCode
  /-- The new login code. -/
  | newCode
deriving DecidableEq

/-- What a session waits for. -/
inductive SessionState where
  /-- For a command. -/
  | idle
  /-- For the answer to a question. -/
  | asking (question : Question)
  /-- For further lines of a macro that goes to a file, or a blank line that ends it. -/
  | collecting (file content : Text)
deriving DecidableEq

/-- A command about one macro file. -/
inductive FileCommand where
  /-- Record live actions into it. -/
  | record
  /-- Play it. -/
  | play
  /-- Show it. -/
  | view
  /-- Collect lines for it. -/
  | save
deriving DecidableEq

namespace FileCommand

/-- Every command, in the order in which a line is compared with them. -/
def all : List FileCommand := [record, play, view, save]

/-- The word of a command. -/
def word : FileCommand → Text
  | record => "RECORD"
  | play => "PLAY"
  | view => "VIEW"
  | save => "SAVE_MACRO"

end FileCommand

/-- A command to an idle session. -/
inductive Command where
  /-- List the commands. -/
  | help
  /-- Describe the device. -/
  | about
  /-- Ask the first question of a dialog. -/
  | ask (question : Question)
  /-- Stop recording. -/
  | stopRecording
  /-- List the macro files. -/
  | listFiles
  /-- Do something with the file of a name. -/
  | file (command : FileCommand) (name : Text)
  /-- Do something with a file that was not named. -/
  | noFile
  /-- Type the line on the host as macro text. -/
  | relay
  /-- Refuse the line. -/
  | unknown
deriving DecidableEq

/-- What a line asks for. -/
inductive LineRequest where
  /-- Keep the line as part of a macro. -/
  | collect (file content : Text)
  /-- Save the macro that was collected. -/
  | finish (file content : Text)
  /-- Nothing. -/
  | nothing
  /-- Act on the host at once, and reply with a text. -/
  | act (directive : Directive) (reply : Text)
  /-- Take the line as the answer to a question. -/
  | answer (question : Question) (t : Text)
  /-- Obey a command. -/
  | obey (command : Command)
deriving DecidableEq

/-- The rest of a line after a word and a colon, in any letter case. -/
def Command.argument? (word line : Text) : Option Text :=
  let lead := word ++ ":"
  if Text.sameLetters (line.take lead.length) lead then some (line.drop lead.length) else none

/-- The command of a wireless link about files and recordings that a line is, if it is one. -/
def Command.ofWireless? (line : Text) : Option Command :=
  if line.upper = "STOPRECORD".toList ∨ line.upper = "STOP".toList then some .stopRecording
  else if line.upper = "LIST".toList then some .listFiles
  else
    match FileCommand.all.findSome? fun command =>
        (Command.argument? command.word line).map fun name => (command, name) with
    | some (command, name) => if name.trim.isEmpty then some .noFile else some (.file command name)
    | none => if FileCommand.all.any (line.upper == ·.word) then some .noFile else none

/-- The command that a line is to an idle session of some kind of link. -/
def Command.ofLine (kind : LinkKind) (relaying : Bool) (line : Text) : Command :=
  if line.upper = "HELP".toList then .help
  else if line.upper = "ABOUT".toList then .about
  else if line.upper = "PWUPDATE".toList then .ask .codeForUpdate
  else if line.upper = "RETRIEVEPW".toList ∨ line.upper = "RETRIVEPW".toList then
    .ask .codeForListing
  else if line.upper = "CHANGELOGIN".toList then .ask .oldCode
  else
    match kind with
    | .serial => .unknown
    | .ble => (ofWireless? line).getD (if relaying then .relay else .unknown)

/-- The live action that a line is, with its reply, if it is one. -/
def LineRequest.live? (line : Text) : Option LineRequest :=
  match Text.after? "TYPE:" line with
  | some t => some (.act (.text t) "OK: Typed to PC")
  | none =>
  match Text.after? "KEY:" line with
  | some spec => some (.act (.key spec.trim) "OK: Key sent to PC")
  | none =>
  match Text.after? "MOUSE:" line with
  | some args => some (.act (.mouse (MouseCommand.parse args)) "OK: Mouse action sent")
  | none =>
  match Text.after? "GAMEPAD:" line with
  | some args => some (.act (.gamepad (PadCommand.parse args)) "OK: Gamepad action sent")
  | none => none

namespace LineRequest

/-- What a line asks for where no macro is collected, blanks around it being dropped. -/
def ofTrimmed (kind : LinkKind) (relaying : Bool) (state : SessionState) (t : Text) : LineRequest :=
  let dialog : LineRequest :=
    match state with
    | .asking question => .answer question t
    | _ => .obey (Command.ofLine kind relaying t)
  match kind with
  | .serial => dialog
  | .ble => (live? t).getD dialog

/-- What a line asks for. -/
def ofLine (kind : LinkKind) (relaying : Bool) (state : SessionState) (line : Line) : LineRequest :=
  match state with
  | .collecting file content =>
    if line.text.trim.isEmpty then .finish file content
    else .collect file (content ++ line.text ++ "\n")
  | state =>
    if line.text.trim.isEmpty then .nothing
    else ofTrimmed kind relaying state line.text.trim

end LineRequest

end Keyfob
