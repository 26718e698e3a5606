import Keyfob.Proofs.Files.Honest
import Keyfob.Proofs.Session.Recording
import Keyfob.Proofs.Session.Serving
import Keyfob.Proofs.Session.Within

/-!
# What a line does with a recording

While a recording runs (`Core.Tapes`), a line adds a live action to its file or leaves the recording
as it is (`Handling.tapes_fulfil`), unless it stops the recording or makes the file anew. Only what
was appended moves the time up to which the recording goes. Everything else spares the recording
(`Core.Spares`): what is relayed or played, dialogs, and macros that go to other files.
-/
namespace Keyfob

variable {δ κ φ ρ : Type}

/-- A live action that was added to a recording, and when. -/
structure Noted where
  /-- When it was added. -/
  time : Instant
  /-- What was done. -/
  directive : Directive
deriving DecidableEq

namespace Core

/-- What was done spares a recording: the recorder and the file of the recording are as they were,
and the clock was not turned back. -/
structure Spares (held? : φ → Option (List UInt8)) (before after : Core δ κ φ) : Prop where
  /-- The recorder is the same. -/
  recorder : after.recorder = before.recorder
  /-- The time is the same or later. -/
  clock : before.now ≤ after.now
  /-- There is a place for files where there was one, and the file holds the same. -/
  files : after.files.map held? = before.files.map held?

/-- A recording runs into a file that holds some bytes, and all it holds was appended up to a
time. -/
structure Tapes (held? : φ → Option (List UInt8)) (file : Text) (started last : Instant)
    (held : List UInt8) (core : Core δ κ φ) : Prop where
  /-- The recording runs. -/
  running : core.recorder.running = some ⟨file, started, last⟩
  /-- That time is not to come. -/
  clock : last ≤ core.now
  /-- The file holds the bytes. -/
  files : core.files.map held? = some (some held)

variable {held? : φ → Option (List UInt8)}

instance (before after : Core δ κ φ) : Decidable (before.Spares held? after) :=
  decidable_of_iff (after.recorder = before.recorder ∧ before.now ≤ after.now ∧
    after.files.map held? = before.files.map held?)
    ⟨fun ⟨recorder, clock, files⟩ => ⟨recorder, clock, files⟩,
      fun spares => ⟨spares.recorder, spares.clock, spares.files⟩⟩

/-- Nothing and things in turn spare a recording. -/
theorem Spares.course : Course (Spares held? : Core δ κ φ → Core δ κ φ → Prop) where
  refl core := ⟨rfl, UInt64.le_refl core.now, rfl⟩
  trans earlier later := ⟨later.recorder.trans earlier.recorder,
    UInt64.le_trans earlier.clock later.clock, later.files.trans earlier.files⟩

/-- A recording that is spared goes on. -/
theorem Tapes.spare {file : Text} {started last : Instant} {held : List UInt8}
    {before after : Core δ κ φ} (tapes : before.Tapes held? file started last held)
    (spares : before.Spares held? after) : after.Tapes held? file started last held where
  running := (congrArg Recorder.running spares.recorder).trans tapes.running
  clock := UInt64.le_trans tapes.clock spares.clock
  files := spares.files.trans tapes.files

end Core

namespace LineRequest

variable [FileStore φ]

/-- Whether what a line asks for stops the recording that runs: the command to stop it, and the one
to record into a file, even where that file cannot be made. -/
def stopsRecording (core : Core δ κ φ) : LineRequest → Bool
  | .obey .stopRecording => true
  | .obey (.file .record name) => (FileName.ofUser? name).isSome && core.files.isSome
  | _ => false

/-- Whether what a line asks for makes a file anew: it ends a macro that is collected for the file,
or begins a recording into it. -/
def overwrites (file : Text) (core : Core δ κ φ) : LineRequest → Bool
  | .finish other content => other = file && core.files.any fun files =>
      (FileStore.write other content.utf8 files).1.toBool
  | .obey (.file .record name) => FileName.ofUser? name = some file && core.files.isSome
  | _ => false

/-- The live action that a line adds to a recording in the files there are: the line asks for it, it
is carried out, and its lines are appended. -/
def noted? [Device δ] (core : Core δ κ φ) : LineRequest → Option Noted
  | .act directive _ =>
    match core.files with
    | none => none
    | some files =>
      match (core.macros.runDirective directive core.device).1,
          (core.recorder.record core.now directive files).1 with
      | .ok (), .ok () => some ⟨core.now, directive⟩
      | _, _ => none
  | _ => none

end LineRequest

namespace Handling

variable [FileStore φ] [ReplyPort ρ]

/-- Where there are files, a live action is carried out and, where that is done, recorded in
them. -/
theorem core_act [Device δ] (directive : Directive) (done : Text) {exchange : Exchange δ κ φ ρ}
    {files : φ} (placed : exchange.core.files = some files) :
    let core := exchange.core
    let acted := core.macros.runDirective directive core.device
    let recorded := core.recorder.record core.now directive files
    (act directive done exchange).2.core =
      match acted.1 with
      | .ok () =>
        { core with
          macros := acted.2.1, device := acted.2.2,
          recorder := recorded.2.1, files := some recorded.2.2 }
      | .error _ => { core with macros := acted.2.1, device := acted.2.2 } := by
  dsimp only
  unfold act
  rw [bind_eq]
  simp only [runMacros, share]
  generalize exchange.core.macros.runDirective directive exchange.core.device = acted
  obtain ⟨result, macros, device⟩ := acted
  cases result with
  | error e => rfl
  | ok _ =>
    change (((look fun core => core.files) >>= _ : Handling δ κ φ ρ Unit) _).2.core = _
    rw [bind_eq]
    simp only [look, attempt, placed]
    rfl

end Handling

/-- A recording that runs records what can be appended, and goes on from then. -/
theorem Recorder.record_of_appended [FileStore φ] {recorder : Recorder} {running : RunningRecording}
    (runs : recorder.running = some running) {now : Instant} {directive : Directive}
    {files after : φ}
    (appended : FileStore.append running.file
      (entry (running.last.elapsed now) directive).utf8 files = (.ok (), after)) :
    recorder.record now directive files =
      (.ok (), ⟨some { running with last := now }⟩, after) := by
  simp only [record, runs, appended]

/-- What cannot be appended is not recorded, and the recording goes on from where it was. -/
theorem Recorder.record_of_refused [FileStore φ] {recorder : Recorder} {running : RunningRecording}
    (runs : recorder.running = some running) {now : Instant} {directive : Directive}
    {files after : φ} {e : FileError}
    (refused : FileStore.append running.file
      (entry (running.last.elapsed now) directive).utf8 files = (.error e, after)) :
    recorder.record now directive files = (.error e, recorder, after) := by
  simp only [record, runs, refused]

namespace Core.Tapes

variable [FileStore φ] {held? : φ → Option (List UInt8)} {file : Text} {started last : Instant}
  {held : List UInt8}

/-- A directive is recorded at the end of the file, or it is refused and changes nothing. -/
theorem record (honest : FileStore.Honest file held?) {core : Core δ κ φ}
    (tapes : core.Tapes held? file started last held) {files : φ}
    (placed : core.files = some files) (directive : Directive) (macros : MacroEngine)
    (device : δ) :
    let recorded := core.recorder.record core.now directive files
    let after := { core with
      macros := macros, device := device, recorder := recorded.2.1, files := some recorded.2.2 }
    (recorded.1 = .ok () → after.Tapes held? file started core.now
      (held ++ (Recorder.entry (last.elapsed core.now) directive).utf8)) ∧
      (recorded.1 ≠ .ok () → after.Tapes held? file started last held) := by
  have before : held? files = some held := by
    have kept := tapes.files
    rw [placed] at kept
    exact Option.some.inj kept
  have added := honest.append (Recorder.entry (last.elapsed core.now) directive).utf8 files
  have kept := honest.unappended (Recorder.entry (last.elapsed core.now) directive).utf8 files
  dsimp only
  cases appended :
      FileStore.append file (Recorder.entry (last.elapsed core.now) directive).utf8 files with
  | mk result after =>
    rw [appended] at added kept
    cases result with
    | ok _ =>
      rw [Recorder.record_of_appended tapes.running appended]
      refine ⟨fun _ => ⟨rfl, UInt64.le_refl core.now, ?_⟩, fun refused => absurd rfl refused⟩
      have holds := added rfl
      rw [before] at holds
      exact congrArg some holds
    | error e =>
      have failed : (Except.error e : Except FileError Unit) ≠ .ok () := by simp
      rw [Recorder.record_of_refused tapes.running appended]
      refine ⟨fun done => absurd done failed, fun _ => ⟨tapes.running, tapes.clock, ?_⟩⟩
      exact congrArg some ((kept failed).trans before)

end Core.Tapes

/-- Putting a failure in order spares a recording. -/
theorem Session.spares_settle [Device δ] [ReplyPort ρ] {held? : φ → Option (List UInt8)}
    {kind : LinkKind} {outcome : Except (Fault SessionError) Unit × Exchange δ κ φ ρ} :
    outcome.2.core.Spares held? (settle kind outcome).2.1 := by
  unfold settle
  split
  · exact Core.Spares.course.refl _
  · exact Core.Spares.course.refl _
  · exact ⟨rfl, UInt64.le_refl _, rfl⟩

namespace Handling

variable [FileStore φ] [ReplyPort ρ] {held? : φ → Option (List UInt8)} {file : Text}

/-- Saving a macro spares a recording, unless the macro goes to its file. -/
theorem spares_saveMacro (honest : FileStore.Honest file held?) {other content : Text}
    (exchange : Exchange δ κ φ ρ)
    (apart : LineRequest.overwrites file exchange.core (.finish other content) = false) :
    exchange.core.Spares held? (saveMacro other content exchange).2.core := by
  unfold saveMacro
  rw [withFiles_eq]
  cases placed : exchange.core.files with
  | none => exact Core.Spares.course.refl _
  | some files =>
    have kept : held? (FileStore.write other content.utf8 files).2 = held? files := by
      by_cases same : other = file
      · subst same
        refine honest.unwritten content.utf8 files fun written => ?_
        simp [LineRequest.overwrites, placed, written, Except.toBool] at apart
      · exact honest.apart other content.utf8 files same
    have spared : exchange.core.Spares held?
        { exchange.core with files := some (FileStore.write other content.utf8 files).2 } := by
      refine ⟨rfl, UInt64.le_refl _, ?_⟩
      rw [placed]
      exact congrArg some kept
    simp only [bind_eq, write, attempt]
    cases (FileStore.write other content.utf8 files).1 with
    | ok _ => exact spared
    | error _ => exact spared

/-- Begin a recording, and reply how that went. -/
def beginRecording (file : Text) (files : φ) : Handling δ κ φ ρ Unit := do
  match ← write (fun core files => core.recorder.start core.now file files) files with
  | .ok () => reply ("OK: Recording started to " ++ file)
  | .error _ => reply "ERROR: Cannot create file on SD card"

/-- Where nothing is recorded, and then something is, the file was made and is empty. -/
theorem tapes_beginRecording (honest : FileStore.Honest file held?) {files : φ}
    {exchange : Exchange δ κ φ ρ} (idle : exchange.core.recorder.running = none)
    (runs : (beginRecording file files exchange).2.core.recorder.running ≠ none) :
    (beginRecording file files exchange).2.core.Tapes held? file exchange.core.now
      exchange.core.now [] := by
  have written : (FileStore.write file [] files).1 = .ok () := by
    unfold beginRecording at runs
    rw [bind_eq] at runs
    simp only [write, attempt, Recorder.start] at runs
    cases made : FileStore.write file [] files with
    | mk result after =>
      cases result with
      | ok _ => rfl
      | error e =>
        rw [made] at runs
        exact absurd idle runs
  have begun : (beginRecording file files exchange).2.core =
      { exchange.core with
        recorder := ⟨some ⟨file, exchange.core.now, exchange.core.now⟩⟩,
        files := some (FileStore.write file [] files).2 } :=
    (start_eq file _ _ exchange written).2
  rw [begun]
  exact ⟨rfl, UInt64.le_refl _, congrArg some (honest.write [] files written)⟩

/-- Whatever recording is begun, no file changes but the one it goes to. -/
theorem files_beginRecording (file : Text) (files : φ) (exchange : Exchange δ κ φ ρ) :
    (beginRecording file files exchange).2.core.files =
      some (FileStore.write file [] files).2 := by
  unfold beginRecording
  rw [bind_eq]
  simp only [write, attempt, Recorder.start]
  cases FileStore.write file [] files with
  | mk result after =>
    cases result with
    | ok _ => rfl
    | error e => rfl

variable [Device δ]

/-- The command to record into a file stops what is recorded, and then either fails or begins the
recording. -/
theorem useFile_record_cases (file : Text) (files : φ) (exchange : Exchange δ κ φ ρ) :
    let stopped := { exchange.core with recorder := {} }
    (useFile .record file files exchange).2.core = stopped ∨
      ∃ before, before.core = stopped ∧
        useFile .record file files exchange = beginRecording file files before := by
  intro stopped
  unfold useFile
  dsimp only
  rw [bind_eq]
  simp only [stopRecording, attempt]
  cases (exchange.core.recorder.stop exchange.core.now).1 with
  | none => exact .inr ⟨{ exchange with core := stopped }, rfl, rfl⟩
  | some length =>
    dsimp only
    rw [bind_eq]
    have kept : (reply (Recorder.stoppedReply length)
        { exchange with core := stopped }).2.core = stopped := rfl
    cases sent : reply (Recorder.stoppedReply length) { exchange with core := stopped } with
    | mk result after =>
      rw [sent] at kept
      rw [show reply (Recorder.stoppedReply length) { exchange with core :=
        { exchange.core with recorder := (exchange.core.recorder.stop exchange.core.now).2 } } =
          (result, after) from sent]
      cases result with
      | error e => exact .inl kept
      | ok _ => exact .inr ⟨after, kept, rfl⟩

/-- Where a recording runs after the command to record into a file, it is one into that file, which
is empty. -/
theorem tapes_record (honest : FileStore.Honest file held?) {files : φ}
    {exchange : Exchange δ κ φ ρ}
    (runs : (useFile .record file files exchange).2.core.recorder.running ≠ none) :
    (useFile .record file files exchange).2.core.Tapes held? file exchange.core.now
      exchange.core.now [] := by
  obtain failed | ⟨before, stopped, begun⟩ := useFile_record_cases file files exchange
  · rw [failed] at runs
    exact absurd rfl runs
  · rw [begun] at runs ⊢
    have tapes := tapes_beginRecording honest (congrArg (·.recorder.running) stopped) runs
    rwa [stopped] at tapes

/-- The command to record into another file leaves a file as it was. -/
theorem files_record_of_ne (honest : FileStore.Honest file held?) {other : Text}
    (apart : other ≠ file) {files : φ} {exchange : Exchange δ κ φ ρ}
    (placed : exchange.core.files = some files) :
    (useFile .record other files exchange).2.core.files.map held? =
      exchange.core.files.map held? := by
  obtain failed | ⟨before, _, begun⟩ := useFile_record_cases other files exchange
  · rw [failed]
  · rw [begun, files_beginRecording, placed]
    exact congrArg some (honest.apart other [] files apart)

variable [KeyValueStore κ]

/-- A command spares a recording that it does not stop. -/
theorem spares_obey (kind : LinkKind) (line : Line) {command : Command}
    (exchange : Exchange δ κ φ ρ)
    (goesOn : LineRequest.stopsRecording exchange.core (.obey command) = false) :
    exchange.core.Spares held? (obey kind line command exchange).2.core := by
  by_cases recording : ∃ name, command = .file .record name
  · obtain ⟨name, rfl⟩ := recording
    unfold obey
    dsimp only
    cases named : FileName.ofUser? name with
    | none => exact Core.Spares.course.refl _
    | some file =>
      have unplaced : exchange.core.files = none := by
        simpa [LineRequest.stopsRecording, named] using goesOn
      dsimp only
      rw [withFiles_eq, unplaced]
      exact Core.Spares.course.refl _
  · have working : Core.Working (Core.Spares held? : Core δ κ φ → Core δ κ φ → Prop) :=
      fun _ _ _ _ => ⟨rfl, UInt64.le_refl _, rfl⟩
    refine Within.obey Core.Spares.course kind line command (fun _ => working) ?_ exchange
    rintro (rfl | recorded)
    · cases goesOn
    · exact absurd recorded recording

/-- What a line asks for spares a recording, unless it is a live action, it stops the recording, or
it makes the file anew. -/
theorem spares_fulfil (honest : FileStore.Honest file held?) (kind : LinkKind) (line : Line)
    {request : LineRequest} (exchange : Exchange δ κ φ ρ)
    (still : ∀ directive done, request ≠ .act directive done)
    (goesOn : request.stopsRecording exchange.core = false)
    (apart : request.overwrites file exchange.core = false) :
    exchange.core.Spares held? (fulfil kind line request exchange).2.core := by
  cases request with
  | collect other content => exact Core.Spares.course.refl _
  | finish other content =>
    unfold fulfil
    dsimp only
    rw [bind_eq]
    exact spares_saveMacro honest { exchange with state := .idle } apart
  | nothing => exact Core.Spares.course.refl _
  | act directive done => exact absurd rfl (still directive done)
  | answer question t =>
    exact Within.answer Core.Spares.course
      (fun _ _ _ _ => ⟨rfl, UInt64.le_refl _, rfl⟩) question t exchange
  | obey command =>
    unfold fulfil
    dsimp only
    rw [bind_eq]
    exact spares_obey kind line { exchange with state := .idle } goesOn

/-- What a line asks for adds a live action to a recording at the time there is, after the time
since the one before it, or leaves the recording as it was. -/
theorem tapes_fulfil (honest : FileStore.Honest file held?) (kind : LinkKind) (line : Line)
    {request : LineRequest} (exchange : Exchange δ κ φ ρ) {started last : Instant}
    {held : List UInt8} (tapes : exchange.core.Tapes held? file started last held)
    (goesOn : request.stopsRecording exchange.core = false)
    (apart : request.overwrites file exchange.core = false) :
    let after := (fulfil kind line request exchange).2.core
    match request.noted? exchange.core with
    | none => after.Tapes held? file started last held
    | some noted => last ≤ noted.time ∧ after.Tapes held? file started noted.time
        (held ++ (Recorder.entry (last.elapsed noted.time) noted.directive).utf8) := by
  cases request with
  | act directive done =>
    obtain ⟨files, placed, _⟩ := Option.map_eq_some_iff.mp tapes.files
    have acted := core_act directive done placed
    have recorded := tapes.record honest placed directive
      (exchange.core.macros.runDirective directive exchange.core.device).2.1
      (exchange.core.macros.runDirective directive exchange.core.device).2.2
    dsimp only [LineRequest.noted?, fulfil] at acted recorded ⊢
    rw [acted, placed]
    cases (exchange.core.macros.runDirective directive exchange.core.device).1 with
    | error e =>
      exact tapes.spare ⟨rfl, UInt64.le_refl _, congrArg (Option.map held?) placed.symm⟩
    | ok _ =>
      dsimp only
      cases result : (exchange.core.recorder.record exchange.core.now directive files).1 with
      | error e =>
        rw [result] at recorded
        exact recorded.2 (by simp)
      | ok _ =>
        rw [result] at recorded
        exact ⟨tapes.clock, recorded.1 rfl⟩
  | _ => exact tapes.spare (spares_fulfil honest kind line exchange nofun goesOn apart)

/-- What a line asks for that stops a recording leaves its file as it was, unless it makes it
anew. -/
theorem files_fulfil_of_stops (honest : FileStore.Honest file held?) (kind : LinkKind) (line : Line)
    {request : LineRequest} (exchange : Exchange δ κ φ ρ)
    (stops : request.stopsRecording exchange.core = true)
    (apart : request.overwrites file exchange.core = false) :
    (fulfil kind line request exchange).2.core.files.map held? =
      exchange.core.files.map held? := by
  unfold LineRequest.stopsRecording at stops
  split at stops
  · unfold fulfil obey
    dsimp only
    rw [bind_eq]
    simp only [become]
    rw [bind_eq]
    simp only [stopRecording, attempt]
    cases (exchange.core.recorder.stop exchange.core.now).1 with
    | none => rfl
    | some stopped => rfl
  · next name =>
    obtain ⟨isNamed, isPlaced⟩ := Bool.and_eq_true_iff.mp stops
    obtain ⟨other, named⟩ := Option.isSome_iff_exists.mp isNamed
    obtain ⟨files, placed⟩ := Option.isSome_iff_exists.mp isPlaced
    have differs : other ≠ file := by
      intro same
      subst same
      simp [LineRequest.overwrites, named, isPlaced] at apart
    unfold fulfil obey
    dsimp only
    rw [bind_eq]
    simp only [become, named]
    rw [withFiles_eq]
    have there : ({ exchange with state := .idle } : Exchange δ κ φ ρ).core.files = some files :=
      placed
    have kept := files_record_of_ne honest differs there
    simp only [placed] at kept ⊢
    exact kept
  · cases stops

end Handling

end Keyfob
