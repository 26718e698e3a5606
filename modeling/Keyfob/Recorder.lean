import Keyfob.Files.Basic
import Keyfob.Macro.Directive

/-!
# Recording live actions

While a recording runs, each live action is appended to its file as a directive, after the time
since the action before it as delay directives. The file then plays back as macro text at the
speed at which it was recorded. An action whose lines cannot be appended leaves its time to the
next one.
-/
namespace Keyfob

/-- A time in milliseconds on a clock that starts over at zero after its last time. -/
abbrev Instant := UInt64

/-- The milliseconds from one time to another, none where the clock has gone back or started
over. -/
def Instant.elapsed (since now : Instant) : Nat := now.toNat - since.toNat

/-- A recording that runs. Its times are those of one clock. -/
structure RunningRecording where
  /-- The file it goes to. -/
  file : Text
  /-- When it was started. -/
  started : Instant
  /-- When the last action was recorded, or the recording started. -/
  last : Instant
deriving DecidableEq

/-- A recorder of live actions. -/
structure Recorder where
  /-- The recording that runs, if one does. -/
  running : Option RunningRecording := none
deriving DecidableEq

namespace Recorder

/-- The line that holds a directive. -/
def line (directive : Directive) : Text := directive.written ++ ['\n']

/-- The delays that make up a time: as many of the longest as fit, and the rest. -/
def delays (time : Nat) : List Directive :=
  List.replicate (time / longestDelay) (.delay (UInt32.ofNat longestDelay)) ++
    if time % longestDelay = 0 then [] else [.delay (UInt32.ofNat (time % longestDelay))]

/-- The lines that record a directive after a time. -/
def entry (time : Nat) (directive : Directive) : Text :=
  (delays time ++ [directive]).flatMap line

/-- The file that a recording goes to. -/
def file? (recorder : Recorder) : Option Text := recorder.running.map (·.file)

/-- Start a recording into a file, which is emptied. -/
def start {φ : Type} [FileStore φ] (recorder : Recorder) (now : Instant) (file : Text)
    (files : φ) : Except FileError Unit × Recorder × φ :=
  match FileStore.write file [] files with
  | (.ok (), files) => (.ok (), ⟨some ⟨file, now, now⟩⟩, files)
  | (.error e, files) => (.error e, recorder, files)

/-- Record a directive, if a recording runs. -/
def record {φ : Type} [FileStore φ] (recorder : Recorder) (now : Instant) (directive : Directive)
    (files : φ) : Except FileError Unit × Recorder × φ :=
  match recorder.running with
  | none => (.ok (), recorder, files)
  | some running =>
    let lines := entry (running.last.elapsed now) directive
    match FileStore.append running.file lines.utf8 files with
    | (.ok (), files) => (.ok (), ⟨some { running with last := now }⟩, files)
    | (.error e, files) => (.error e, recorder, files)

/-- Stop the recording that runs: its file and its length in whole seconds. -/
def stop (recorder : Recorder) (now : Instant) : Option (Text × Nat) × Recorder :=
  (recorder.running.map fun running => (running.file, running.started.elapsed now / 1000), {})

end Recorder

end Keyfob
