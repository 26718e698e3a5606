import Keyfob.Hid.Recording
import Keyfob.Proofs.Files.Dependable
import Keyfob.Proofs.Macro.Spill
import Keyfob.Proofs.Session.Handling
import Keyfob.Proofs.Text.Utf8

/-!
# Recordings play back what was done live

While a recording runs, every live action is carried out and its lines are added to the file
(`Session.handleLive_of_records`). On a device and with a file that can be depended on, the file
then plays back the live actions with pauses in between, as long as each fits between its braces;
one that does not is cut short in the file (`Session.playback_of_recorded`).
-/
namespace Keyfob

/-- A line that is a live action, and when it comes. -/
structure LiveLine where
  /-- When it comes. -/
  time : Instant
  /-- The line. -/
  line : Line
  /-- What is done. -/
  directive : Directive
  /-- The reply to it. -/
  done : Text
  /-- The line asks for that. -/
  isLive : LineRequest.live? line.text.trim = some (.act directive done)

namespace LiveLine

/-- What can be done live is to type, to tap a chord, and to use the mouse or the gamepad. -/
theorem directive_cases (live : LiveLine) :
    (∃ t, live.directive = .text t) ∨ (∃ spec, live.directive = .key spec) ∨
      (∃ args, live.directive = .mouse (.parse args)) ∨
      ∃ args, live.directive = .gamepad (.parse args) := by
  obtain ⟨_, line, directive, _, asked⟩ := live
  unfold LineRequest.live? at asked
  split at asked
  · cases asked
    exact .inl ⟨_, rfl⟩
  · split at asked
    · cases asked
      exact .inr (.inl ⟨_, rfl⟩)
    · split at asked
      · cases asked
        exact .inr (.inr (.inl ⟨_, rfl⟩))
      · split at asked
        · cases asked
          exact .inr (.inr (.inr ⟨_, rfl⟩))
        · cases asked

/-- What is done live is read back from what is written for it. -/
theorem readsBack (live : LiveLine) : live.directive.ReadsBack := by
  obtain ⟨t, same⟩ | ⟨spec, same⟩ | ⟨args, same⟩ | ⟨args, same⟩ := live.directive_cases
  · exact same ▸ Directive.readsBack_text t
  · exact same ▸ Directive.readsBack_key spec
  · exact same ▸ Directive.readsBack_mouse args
  · exact same ▸ Directive.readsBack_gamepad args

/-- What is done live leaves the typing speed as it is. -/
theorem keepsSpeed (live : LiveLine) : live.directive.keepsSpeed = true := by
  obtain ⟨t, same⟩ | ⟨spec, same⟩ | ⟨args, same⟩ | ⟨args, same⟩ := live.directive_cases
  all_goals
    rw [same]
    rfl

/-- A live line asks a wireless session that waits for a command to do it. -/
theorem ofLine (live : LiveLine) (relaying : Bool) :
    LineRequest.ofLine .ble relaying .idle live.line = .act live.directive live.done := by
  have asked := live.isLive
  have nonempty : live.line.text.trim.isEmpty = false := by
    cases shape : live.line.text.trim with
    | nil =>
      rw [shape] at asked
      cases asked
    | cons c cs => rfl
  simp only [LineRequest.ofLine, nonempty, LineRequest.ofTrimmed, asked]
  rfl

/-- What a recorder notes of live lines, from the time of what was recorded last. -/
def moments : Instant → List LiveLine → List Moment
  | _, [] => []
  | last, live :: rest => ⟨last.elapsed live.time, live.directive⟩ :: moments live.time rest

/-- When the last of live lines came. -/
def lastTime : Instant → List LiveLine → Instant
  | last, [] => last
  | _, live :: rest => lastTime live.time rest

/-- What is noted of live lines is what they do. -/
theorem exists_of_mem_moments {last : Instant} {lines : List LiveLine} {moment : Moment}
    (listed : moment ∈ moments last lines) :
    ∃ live ∈ lines, moment.directive = live.directive := by
  induction lines generalizing last with
  | nil => cases listed
  | cons live rest ih =>
    cases listed with
    | head => exact ⟨live, List.mem_cons_self, rfl⟩
    | tail _ later =>
      obtain ⟨other, among, same⟩ := ih later
      exact ⟨other, List.mem_cons_of_mem _ among, same⟩

/-- What live lines do is noted of them. -/
theorem exists_mem_moments {lines : List LiveLine} {live : LiveLine} (listed : live ∈ lines)
    (last : Instant) : ∃ moment ∈ moments last lines, moment.directive = live.directive := by
  induction lines generalizing last with
  | nil => cases listed
  | cons first rest ih =>
    cases listed with
    | head => exact ⟨_, List.mem_cons_self, rfl⟩
    | tail _ later =>
      obtain ⟨moment, among, same⟩ := ih later first.time
      exact ⟨moment, List.mem_cons_of_mem _ among, same⟩

end LiveLine

variable {δ κ φ ρ : Type} [FileStore φ] [ReplyPort ρ]

namespace Handling

/-- A live action is carried out and recorded, whether or not it can be replied to. -/
theorem act_eq [Device δ] {fitDevice : δ → Prop} (sound : Device.Dependable fitDevice)
    (directive : Directive) (done : Text) {exchange : Exchange δ κ φ ρ} {files : φ}
    (fits : fitDevice exchange.core.device) (placed : exchange.core.files = some files) :
    let acted := exchange.core.macros.runDirective directive exchange.core.device
    let recorded := exchange.core.recorder.record exchange.core.now directive files
    (act directive done exchange).2.state = exchange.state ∧
      (act directive done exchange).2.core =
        { exchange.core with
          macros := acted.2.1, device := acted.2.2,
          recorder := recorded.2.1, files := some recorded.2.2 } := by
  have accepted := MacroEngine.runDirective_eq sound exchange.core.macros directive fits
  have kept {ε ε' : Type} (fault : ε → ε') :
      (Except.ok () : Except ε Unit).mapError fault = .ok () := rfl
  dsimp only
  unfold act
  rw [bind_eq]
  simp only [runMacros, share, accepted, kept]
  rw [bind_eq]
  simp only [look, attempt, placed]
  exact ⟨rfl, rfl⟩

/-- A recording is started into the empty file, whether or not it can be replied to. -/
theorem start_eq (file done failed : Text) {files : φ} (exchange : Exchange δ κ φ ρ)
    (written : (FileStore.write file [] files).1 = .ok ()) :
    let started := (do
      match ← write (fun core files => core.recorder.start core.now file files) files with
      | .ok () => reply done
      | .error _ => reply failed : Handling δ κ φ ρ Unit) exchange
    started.2.state = exchange.state ∧
      started.2.core =
        { exchange.core with
          recorder := ⟨some ⟨file, exchange.core.now, exchange.core.now⟩⟩,
          files := some (FileStore.write file [] files).2 } := by
  have made : exchange.core.recorder.start exchange.core.now file files =
      (.ok (), ⟨some ⟨file, exchange.core.now, exchange.core.now⟩⟩,
        (FileStore.write file [] files).2) := by
    unfold Recorder.start
    split
    · next same => rw [same]
    · next same =>
      rw [same] at written
      cases written
  dsimp only
  rw [bind_eq]
  simp only [write, attempt, made]
  exact ⟨rfl, rfl⟩

/-- Where the command to record is handled to its end, a recording is started into the empty
file. -/
theorem useFile_record [Device δ] {file : Text} {files : φ} (exchange : Exchange δ κ φ ρ)
    (written : (FileStore.write file [] files).1 = .ok ())
    (well : (useFile .record file files exchange).1 = .ok ()) :
    (useFile .record file files exchange).2.state = exchange.state ∧
      (useFile .record file files exchange).2.core =
        { exchange.core with
          recorder := ⟨some ⟨file, exchange.core.now, exchange.core.now⟩⟩,
          files := some (FileStore.write file [] files).2 } := by
  unfold useFile at well ⊢
  dsimp only at well ⊢
  rw [bind_eq] at well ⊢
  simp only [stopRecording, attempt] at well ⊢
  cases stopped : (exchange.core.recorder.stop exchange.core.now).1 with
  | none =>
    simp only
    exact start_eq file _ _ _ written
  | some length =>
    simp only [stopped] at well ⊢
    rw [bind_eq] at well ⊢
    generalize before : ({ exchange with core :=
      { exchange.core with recorder := (exchange.core.recorder.stop exchange.core.now).2 } } :
        Exchange δ κ φ ρ) = left at well ⊢
    have kept : (reply (Recorder.stoppedReply length) left).2.state = left.state ∧
        (reply (Recorder.stoppedReply length) left).2.core = left.core := ⟨rfl, rfl⟩
    cases outcome : reply (Recorder.stoppedReply length) left with
    | mk result after =>
      rw [outcome] at well kept
      cases result with
      | error e => cases well
      | ok _ =>
        have started := start_eq file ("OK: Recording started to " ++ file)
          "ERROR: Cannot create file on SD card" after written
        dsimp only at started kept ⊢
        rw [kept.1, kept.2, ← before] at started
        exact started

end Handling

variable [Device δ] [KeyValueStore κ]

/-- A recording into a file runs: the file holds what was recorded so far, up to some time. -/
structure Core.Records (core : Core δ κ φ) (fit : φ → Prop) (file script : Text)
    (started last : Instant) : Prop where
  /-- There is a place for files, and the file in it can be read. -/
  files : ∃ files, core.files = some files ∧ fit files ∧
    FileStore.read file files = .ok script.utf8
  /-- The recording runs. -/
  running : core.recorder.running = some ⟨file, started, last⟩

namespace Session

/-- Handle live lines as they come. -/
def handleLive (session : Session) : List LiveLine → Core δ κ φ → ρ → Session × Core δ κ φ × ρ
  | [], core, port => (session, core, port)
  | live :: rest, core, port =>
    let (_, session, core, port) := session.handle live.line { core with now := live.time } port
    handleLive session rest core port

/-- A live line is carried out and recorded. -/
theorem handle_live {fitDevice : δ → Prop} (sound : Device.Dependable fitDevice)
    (live : LiveLine) (core : Core δ κ φ) {files : φ} (fits : fitDevice core.device)
    (placed : core.files = some files) (port : ρ) :
    let handled := handle ⟨.ble, .idle⟩ live.line core port
    let acted := core.macros.runDirective live.directive core.device
    let recorded := core.recorder.record core.now live.directive files
    handled.2.1 = ⟨.ble, .idle⟩ ∧
      handled.2.2.1 =
        { core with
          macros := acted.2.1, device := acted.2.2,
          recorder := recorded.2.1, files := some recorded.2.2 } := by
  have place : (⟨.idle, core, port⟩ : Exchange δ κ φ ρ).core.files = some files := placed
  have done := Handling.act_eq sound live.directive live.done fits place
  dsimp only at done ⊢
  unfold handle
  dsimp only
  rw [live.ofLine]
  exact ⟨congrArg _ done.1, done.2⟩

/-- While a recording runs, a live line adds its lines to the file. -/
theorem records_handle_live {fitDevice : δ → Prop} (sound : Device.Dependable fitDevice)
    {fit : φ → Prop} {file script : Text} (dependable : FileStore.Dependable file fit)
    {core : Core δ κ φ} (fits : fitDevice core.device) {started last : Instant}
    (records : core.Records fit file script started last) (live : LiveLine) (port : ρ) :
    let handled := handle ⟨.ble, .idle⟩ live.line { core with now := live.time } port
    let next := MacroEngine.next (capabilities core.device) core.macros live.directive
    handled.2.1 = ⟨.ble, .idle⟩ ∧
      handled.2.2.1.Records fit file
        (script ++ Recorder.entry (last.elapsed live.time) live.directive) started live.time ∧
      handled.2.2.1.macros = next.1 ∧
      handled.2.2.1.device = carriedOut next.2.all core.device ∧
      handled.2.2.1.settings = core.settings := by
  obtain ⟨files, placed, fitting, readable⟩ := records.files
  have acted := MacroEngine.runDirective_eq sound core.macros live.directive fits
  have done := handle_live sound live { core with now := live.time } fits placed port
  obtain ⟨added, fine, read⟩ := dependable.append _
    (Recorder.entry (last.elapsed live.time) live.directive).utf8 files fitting readable
  have recorded : core.recorder.record live.time live.directive files =
      (.ok (), ⟨some ⟨file, started, live.time⟩⟩,
        (FileStore.append file
          (Recorder.entry (last.elapsed live.time) live.directive).utf8 files).2) := by
    unfold Recorder.record
    rw [records.running]
    dsimp only
    split
    · next same => rw [same]
    · next same =>
      rw [same] at added
      cases added
  dsimp only at done ⊢
  rw [recorded, acted] at done
  rw [done.1, done.2]
  refine ⟨rfl, ⟨⟨_, rfl, fine, ?_⟩, rfl⟩, rfl, rfl, rfl⟩
  rw [read, Text.utf8_append]

/-- While a recording runs, live lines are carried out one after another and added to the file. -/
theorem handleLive_of_records {fitDevice : δ → Prop} (sound : Device.Dependable fitDevice)
    {fit : φ → Prop} {file script : Text} (dependable : FileStore.Dependable file fit)
    {core : Core δ κ φ} (fits : fitDevice core.device) {started last : Instant}
    (records : core.Records fit file script started last) (lines : List LiveLine) (port : ρ) :
    let handled := handleLive ⟨.ble, .idle⟩ lines core port
    let moments := LiveLine.moments last lines
    handled.1 = ⟨.ble, .idle⟩ ∧
      handled.2.1.Records fit file (script ++ Moment.script moments) started
        (LiveLine.lastTime last lines) ∧
      handled.2.1.device =
        carriedOut (Moment.live (capabilities core.device) core.macros moments) core.device ∧
      handled.2.1.settings = core.settings := by
  induction lines generalizing core script last port with
  | nil =>
    refine ⟨rfl, ?_, rfl, rfl⟩
    rw [LiveLine.moments, Moment.script, List.flatMap_nil, List.append_nil]
    exact records
  | cons live rest ih =>
    have now := records_handle_live sound dependable fits records live port
    obtain ⟨_, still, able⟩ := performAll_of_dependable sound
      (MacroEngine.next (capabilities core.device) core.macros live.directive).2.all fits
    dsimp only at now ⊢
    rw [handleLive]
    generalize handle ⟨.ble, .idle⟩ live.line { core with now := live.time } port = outcome at now
    obtain ⟨result, session, after, sent⟩ := outcome
    obtain ⟨rfl, recorded, macros, device, settings⟩ := now
    dsimp only at macros device settings recorded
    have later := ih (device ▸ still) recorded sent
    dsimp only at later ⊢
    rw [macros, device, able, settings, List.append_assoc] at later
    rw [LiveLine.moments]
    refine ⟨later.1, later.2.1, ?_, later.2.2.2⟩
    rw [later.2.2.1]
    unfold Moment.live
    rw [List.map_cons, Interpreter.run, carriedOut_append]

/-- Where the command to record is handled to its end, a recording into the empty file runs. -/
theorem records_handle_record {session : Session} {starting : Line} {name file : Text}
    {fit : φ → Prop} (dependable : FileStore.Dependable file fit) {core : Core δ κ φ} {files : φ}
    {port : ρ} (wireless : session.kind = .ble)
    (asked : LineRequest.ofLine .ble core.settings.dualRelay session.state starting =
      .obey (.file .record name))
    (named : FileName.ofUser? name = some file) (placed : core.files = some files)
    (fitting : fit files) (well : (session.handle starting core port).1 = .ok ()) :
    let handled := session.handle starting core port
    handled.2.1 = ⟨.ble, .idle⟩ ∧ handled.2.2.1.Records fit file [] core.now core.now ∧
      handled.2.2.1.macros = core.macros ∧ handled.2.2.1.device = core.device ∧
      handled.2.2.1.settings = core.settings := by
  obtain ⟨written, fits, read⟩ := dependable.write [] files fitting
  have obeyed : Handling.fulfil session.kind starting
      (LineRequest.ofLine session.kind core.settings.dualRelay session.state starting)
      ⟨session.state, core, port⟩ =
        Handling.useFile .record file files ⟨.idle, core, port⟩ := by
    rw [wireless, asked]
    unfold Handling.fulfil Handling.obey Handling.withFiles
    simp only [named]
    rw [Handling.bind_eq]
    simp only [Handling.become]
    rw [Handling.bind_eq]
    simp only [Handling.look, Handling.attempt, placed]
  unfold handle at well ⊢
  dsimp only [ExceptT.run] at well ⊢
  rw [obeyed] at well ⊢
  have done :=
    Handling.useFile_record (⟨.idle, core, port⟩ : Exchange δ κ φ ρ) written
  generalize Handling.useFile .record file files ⟨.idle, core, port⟩ = outcome at well done
  obtain ⟨result, exchange⟩ := outcome
  obtain ⟨state, after⟩ := done well
  dsimp only at state after ⊢
  rw [state, after]
  exact ⟨congrArg (Session.mk · .idle) wireless, ⟨⟨_, rfl, fits, read⟩, rfl⟩, rfl, rfl, rfl⟩

/-- Stopping the recording leaves the files and the device as they are. -/
theorem handle_stopRecording {stopping : Line} (core : Core δ κ φ)
    (asked : LineRequest.ofLine .ble core.settings.dualRelay .idle stopping =
      .obey .stopRecording) (port : ρ) :
    let handled := handle ⟨.ble, .idle⟩ stopping core port
    handled.2.2.1.recorder = {} ∧ handled.2.2.1.files = core.files ∧
      handled.2.2.1.device = core.device := by
  unfold handle
  dsimp only [ExceptT.run]
  rw [asked]
  unfold Handling.fulfil Handling.obey
  dsimp only
  rw [Handling.bind_eq]
  simp only [Handling.become]
  rw [Handling.bind_eq]
  simp only [Handling.stopRecording, Handling.attempt]
  cases (core.recorder.stop core.now).1 with
  | none => exact ⟨rfl, rfl, rfl⟩
  | some stopped => exact ⟨rfl, rfl, rfl⟩

/-- Handle a line that starts a recording, live lines as they come, and at some time a line that
stops the recording. -/
def recordLive (session : Session) (starting : Line) (lines : List LiveLine) (stopping : Line)
    (later : Instant) (core : Core δ κ φ) (port : ρ) : Core δ κ φ :=
  let (_, session, core, port) := session.handle starting core port
  let (session, core, port) := session.handleLive lines core port
  (session.handle stopping { core with now := later } port).2.2.1

end Session

/-- A recording plays back, but for the recorded pauses, what was done live, if each live action
fits between its braces. The file holds the recorded directives only then, and where nothing but
texts without line breaks may spill over, it plays back what was done live only then. -/
theorem Session.playback_of_recorded {fitDevice : δ → Prop}
    (sound : Device.Dependable fitDevice) {fit : φ → Prop} {file : Text}
    (dependable : FileStore.Dependable file fit) (session : Session) (starting : Line)
    (lines : List LiveLine) (stopping : Line) (later : Instant) (core : Core δ κ φ) (port : ρ)
    (fits : fitDevice core.device) (wireless : session.kind = .ble) {name : Text}
    (asked : LineRequest.ofLine .ble core.settings.dualRelay session.state starting =
      .obey (.file .record name))
    (named : FileName.ofUser? name = some file) {files : φ} (placed : core.files = some files)
    (fitting : fit files) (well : (session.handle starting core port).1 = .ok ())
    (stops : LineRequest.ofLine .ble core.settings.dualRelay .idle stopping =
      .obey .stopRecording) :
    let recorded := session.recordLive starting lines stopping later core port
    let moments := LiveLine.moments core.now lines
    let events := Moment.live (capabilities core.device) core.macros moments
    let replays := Moment.replays (capabilities core.device) core.macros.newPass moments
    recorded.device = carriedOut events core.device ∧
      ∃ kept bytes, recorded.files = some kept ∧ FileStore.read file kept = .ok bytes ∧
        (∀ other : δ, fitDevice other → capabilities other = capabilities core.device →
          (core.macros.run (Text.decode bytes) other).1 = .ok () ∧
            (core.macros.run (Text.decode bytes) other).2.2 =
              carriedOut (replays.flatMap Replay.actions) other) ∧
        ((∀ live ∈ lines, live.directive.body.fitsBraces = true) →
          replays.flatMap Replay.events = events) ∧
        (Piece.ofText (Text.decode bytes) =
            (moments.flatMap Moment.directives).flatMap Directive.pieces ↔
          ∀ live ∈ lines, live.directive.body.fitsBraces = true) ∧
        ((∀ live ∈ lines, live.directive.Plain) →
          replays.flatMap Replay.events = events →
            ∀ live ∈ lines, live.directive.body.fitsBraces = true) := by
  dsimp only
  have begun := records_handle_record dependable wireless asked named placed fitting well
  unfold recordLive
  generalize session.handle starting core port = opening at begun
  obtain ⟨_, opened, first, sent⟩ := opening
  obtain ⟨rfl, records, macros, device, settings⟩ := begun
  dsimp only at macros device settings records ⊢
  have course := handleLive_of_records sound dependable (device.symm ▸ fits) records lines sent
  dsimp only at course
  rw [macros, device, settings] at course
  generalize handleLive ⟨.ble, .idle⟩ lines first sent = running at course
  obtain ⟨stayed, second, answered⟩ := running
  obtain ⟨rfl, full, carried, still⟩ := course
  have ended := handle_stopRecording { second with now := later } (still ▸ stops) answered
  obtain ⟨kept, place, _, readable⟩ := full.files
  dsimp only at ended carried ⊢
  rw [ended.2.1, ended.2.2, carried]
  have fitMoments : (∀ live ∈ lines, live.directive.body.fitsBraces = true) ↔
      ∀ moment ∈ LiveLine.moments core.now lines, moment.directive.body.fitsBraces = true := by
    constructor
    · intro fit moment listed
      obtain ⟨live, among, same⟩ := LiveLine.exists_of_mem_moments listed
      exact same ▸ fit live among
    · intro fit live listed
      obtain ⟨moment, among, same⟩ := LiveLine.exists_mem_moments listed core.now
      exact same ▸ fit moment among
  have readBack : ∀ moment ∈ LiveLine.moments core.now lines, moment.directive.ReadsBack := by
    intro moment listed
    obtain ⟨live, _, same⟩ := LiveLine.exists_of_mem_moments listed
    exact same ▸ live.readsBack
  refine ⟨rfl, kept, _, place, readable, ?_, ?_, ?_, ?_⟩
  · intro other fitting able
    have run := MacroEngine.run_eq sound core.macros
      (Text.decode (Text.utf8 ([] ++ Moment.script (LiveLine.moments core.now lines)))) fitting
    rw [able, Text.decode_utf8, List.nil_append, Moment.run_script] at run
    rw [Text.decode_utf8, List.nil_append]
    exact run
  · intro fit
    refine Moment.events_replays_of_fits _ _ readBack ?_ (fitMoments.mp fit)
    intro moment listed
    obtain ⟨live, _, same⟩ := LiveLine.exists_of_mem_moments listed
    exact same ▸ live.keepsSpeed
  · rw [Text.decode_utf8, List.nil_append, Moment.ofText_script_iff, fitMoments]
  · intro plain same
    apply fitMoments.mpr
    refine Moment.fit_of_typed_events (capabilities core.device) core.macros.newPass readBack ?_ ?_
    · intro moment listed
      obtain ⟨live, among, same⟩ := LiveLine.exists_of_mem_moments listed
      exact same ▸ plain live among
    · rw [same, Moment.typed_live]

namespace Session

/-- A device as it comes, some time after it was started. -/
def restedCore : Core Recording MemoryStore MemoryFiles :=
  { Core.ofSettings {} {} {} {} (some {}) with now := 1000 }

/-- Two texts that are typed live, with a tap of Enter between them after a while. -/
def liveTexts : List LiveLine := [
  ⟨1040, { text := "TYPE:a\x7d b" }, .text "a\x7d b", "OK: Typed to PC", by decide⟩,
  ⟨9000, { text := "KEY: enter" }, .key "enter", "OK: Key sent to PC", by decide⟩,
  ⟨9000, { text := "TYPE:c" }, .text "c", "OK: Typed to PC", by decide⟩]

/-- Such texts are played back as they were typed. -/
theorem playback_liveTexts :
    let moments := LiveLine.moments restedCore.now liveTexts
    (Moment.replays .everything restedCore.macros.newPass moments).flatMap Replay.events =
      Moment.live .everything restedCore.macros moments := by
  have facts := playback_of_recorded Recording.dependable (MemoryFiles.dependable "m.txt")
    ⟨.ble, .idle⟩ { text := "record:m" } liveTexts { text := "STOPRECORD" } 9500 restedCore
    ({} : ReplyLog) trivial rfl rfl rfl rfl rfl rfl rfl
  obtain ⟨_, kept, bytes, _, _, _, repeated, _⟩ := facts
  exact repeated (by decide +kernel)

/-- A text with two closing braces in it. -/
def liveSpill : List LiveLine :=
  [⟨1000, { text := "TYPE:a\x7d\x7db" }, .text "a\x7d\x7db", "OK: Typed to PC", by decide⟩]

/-- Such a text is not played back as it was typed: its braces come after it, and a line break
is typed at the end. -/
theorem playback_liveSpill :
    let recorded := recordLive ⟨.ble, .idle⟩ { text := "RECORD:m" } liveSpill
      { text := "STOPRECORD" } 1000 restedCore ({} : ReplyLog)
    ∃ kept bytes, recorded.files = some kept ∧ FileStore.read "m.txt" kept = .ok bytes ∧
      Action.withoutDelays recorded.device.actions = "a\x7d\x7db".toList.map .type ∧
      Action.withoutDelays
          (restedCore.macros.run (Text.decode bytes) ({} : Recording)).2.2.actions =
        "ab\x7d\x7d\n".toList.map .type :=
  ⟨_, _, rfl, rfl, by decide +kernel, by decide +kernel⟩

end Session

end Keyfob
