import Keyfob.Proofs.Session.Serving
import Keyfob.Proofs.Session.Within

/-!
# Lines that crash

A line crashes just where it lists names that are in no order, or plays a file as a script that
crashes (`Session.handled_eq_crash_iff`). Whatever else a line asks for ends or fails
(`Handling.Survives`): replies, looks, live actions, recordings, and whatever a dialog makes of its
answers.
-/
namespace Keyfob

variable {δ κ φ ρ α β ε : Type}

/-- A text is played to a crash just where it is a script whose run crashes. -/
theorem Player.play_eq_crash_iff [Device δ] {player : Player} {content : Text}
    {engine : MacroEngine} {device : δ} {crash : Crash} :
    (player.play content engine device).1 = .error (.crash crash) ↔
      Dialect.detect content = .script ∧
        (player.script.run content engine device).1 = .error (.crash crash) := by
  unfold Player.play
  cases Dialect.detect content with
  | script =>
    dsimp only
    rw [Fault.map_eq_error_iff]
    exact ⟨fun crashed => ⟨rfl, crashed⟩, And.right⟩
  | ducky => exact iff_of_false (Fault.mapError_error_ne_crash id _ crash) nofun
  | tokens => exact iff_of_false (Fault.mapError_error_ne_crash id _ crash) nofun

/-- So is a file that can be read, and no other. -/
theorem Player.playFile_eq_crash_iff [Device δ] [FileStore φ] {player : Player} {files : φ}
    {file : Text} {engine : MacroEngine} {device : δ} {crash : Crash} :
    (player.playFile files file engine device).1 = .error (.crash crash) ↔
      ∃ bytes, FileStore.read file files = .ok bytes ∧
        Dialect.detect (Text.decode bytes) = .script ∧
        (player.script.run (Text.decode bytes) engine device).1 = .error (.crash crash) := by
  unfold Player.playFile
  cases FileStore.read file files with
  | error e => exact iff_of_false nofun nofun
  | ok bytes =>
    dsimp only
    rw [Fault.mapError_map_eq_crash_iff, Player.play_eq_crash_iff]
    constructor
    · exact fun crashed => ⟨bytes, rfl, crashed⟩
    · rintro ⟨_, ⟨⟩, crashed⟩
      exact crashed

namespace Handling

/-- It ends or fails, and never crashes. -/
def Survives (handling : Handling δ κ φ ρ α) : Prop :=
  ∀ exchange crash, (handling exchange).1 ≠ .error (.crash crash)

namespace Survives

/-- Doing nothing survives. -/
theorem pure (result : α) : Survives (pure result : Handling δ κ φ ρ α) := fun _ _ => nofun

/-- What is an answer where it fails survives. -/
theorem attempt (f : Core δ κ φ → α × Core δ κ φ) :
    Survives (attempt f : Handling δ κ φ ρ α) := fun _ _ => nofun

/-- What can only fail survives. -/
theorem share (fault : ε → SessionError) (f : Core δ κ φ → Except ε α × Core δ κ φ) :
    Survives (share (.error ∘ fault) f : Handling δ κ φ ρ α) :=
  fun exchange crash => Fault.mapError_error_ne_crash fault (f exchange.core).1 crash

/-- Waiting for something survives. -/
theorem become (state : SessionState) : Survives (become state : Handling δ κ φ ρ Unit) :=
  fun _ _ => nofun

/-- Two parts survive one after another. -/
theorem bind {first : Handling δ κ φ ρ α} {next : α → Handling δ κ φ ρ β}
    (earlier : Survives first) (later : ∀ result, Survives (next result)) :
    Survives (first >>= next) := by
  intro exchange crash
  rw [bind_eq]
  cases outcome : first exchange with
  | mk result after =>
    cases result with
    | ok value => exact later value after crash
    | error fault =>
      intro crashed
      cases crashed
      exact earlier exchange crash (congrArg Prod.fst outcome)

variable [ReplyPort ρ]

/-- A reply survives. -/
theorem reply (t : Text) : Survives (reply t : Handling δ κ φ ρ Unit) :=
  fun exchange crash =>
    Fault.mapError_error_ne_crash SessionError.link (ReplyPort.reply t exchange.port).1 crash

/-- Replies survive. -/
theorem replyAll (replies : List Text) : Survives (replyAll replies : Handling δ κ φ ρ Unit) := by
  induction replies with
  | nil => exact .pure ()
  | cons t ts ih => exact .bind (.reply t) fun _ => ih

/-- Asking a question survives. -/
theorem ask (question : Question) : Survives (ask question : Handling δ κ φ ρ Unit) :=
  .bind (.reply _) fun _ => .become _

/-- What is done with any files survives where there may be none. -/
theorem withFiles {f : φ → Handling δ κ φ ρ Unit} (survives : ∀ files, Survives (f files)) :
    Survives (withFiles f) := by
  refine .bind (.attempt _) fun place => ?_
  cases place with
  | none => exact .reply noCard
  | some files => exact survives files

/-- What a right code lets through survives behind the code. -/
theorem authorize (t : Text) {granted : Handling δ κ φ ρ Unit} (survives : Survives granted) :
    Survives (authorize t granted) := by
  refine .bind (.attempt _) fun right => ?_
  split
  · exact survives
  · exact .bind (.reply _) fun _ => .become _

/-- Every answer to a question survives. -/
theorem answer [KeyValueStore κ] (question : Question) (t : Text) :
    Survives (answer question t : Handling δ κ φ ρ Unit) := by
  refine .bind (.become _) fun _ => ?_
  cases question with
  | codeForUpdate => exact .authorize t (.ask _)
  | oldCode => exact .authorize t (.ask _)
  | codeForListing =>
    exact .authorize t (.bind (.attempt _) fun _ => .bind (.replyAll _) fun _ => .reply _)
  | credentials =>
    refine .bind (.attempt _) fun result => ?_
    cases result with
    | ok _ => exact .reply _
    | error _ => exact .reply _
  | newCode =>
    dsimp only
    split
    · refine .bind (.attempt _) fun result => ?_
      cases result with
      | ok _ => exact .reply _
      | error _ => exact .reply _
    · exact .reply _

variable [FileStore φ]

/-- Saving a macro survives. -/
theorem saveMacro (file content : Text) :
    Survives (saveMacro file content : Handling δ κ φ ρ Unit) := by
  refine .withFiles fun files => .bind (.attempt _) fun result => ?_
  cases result with
  | ok _ => exact .reply _
  | error _ => exact .reply _

variable [Device δ]

/-- A live action survives. -/
theorem act (directive : Directive) (done : Text) :
    Survives (act directive done : Handling δ κ φ ρ Unit) := by
  refine .bind (.share .hid _) fun _ => .bind (.attempt _) fun place => ?_
  cases place with
  | none => exact .bind (.pure ()) fun _ => .reply done
  | some files =>
    exact .bind (.bind (.attempt _) fun _ => .pure ()) fun _ => .reply done

/-- A command about a file survives, unless it plays the file. -/
theorem useFile {command : FileCommand} (noPlay : command ≠ .play) (file : Text) (files : φ) :
    Survives (useFile command file files : Handling δ κ φ ρ Unit) := by
  unfold Handling.useFile
  cases command with
  | play => exact absurd rfl noPlay
  | record =>
    refine .bind (.attempt _) fun stopped => ?_
    -- The recording starts in the same way whether or not another one was stopped before.
    cases stopped
    case' some stopped => refine .bind (.reply _) fun _ => ?_
    all_goals
      refine .bind (.attempt _) fun result => ?_
      cases result with
      | ok _ => exact .reply _
      | error _ => exact .reply _
  | view =>
    dsimp only
    split
    · exact .bind (.replyAll _) fun _ => .reply _
    · exact .reply _
    · exact .reply _
  | save => exact .bind (.reply _) fun _ => .become _

/-- A command survives, unless it lists the files or plays one. -/
theorem obey [KeyValueStore κ] (kind : LinkKind) (line : Line) {command : Command}
    (noList : command ≠ .listFiles) (noPlay : ∀ name, command ≠ .file .play name) :
    Survives (obey kind line command : Handling δ κ φ ρ Unit) := by
  unfold Handling.obey
  cases command with
  | help => exact .replyAll _
  | about => exact .bind (.attempt _) fun _ => .replyAll _
  | ask question => exact .ask question
  | stopRecording =>
    refine .bind (.attempt _) fun stopped => ?_
    cases stopped with
    | none => exact .reply _
    | some stopped => exact .reply _
  | listFiles => exact absurd rfl noList
  | file command name =>
    dsimp only
    split
    · exact .reply _
    · refine .withFiles fun files => .useFile ?_ _ files
      rintro rfl
      exact noPlay name rfl
  | noFile => exact .reply _
  | relay =>
    refine .bind (.share .hid _) fun _ => ?_
    split
    · exact .share .hid _
    · exact .pure ()
  | unknown => exact .reply _

end Survives

variable [FileStore φ] [ReplyPort ρ] {exchange : Exchange δ κ φ ρ} {crash : Crash}

/-- Listing the files crashes just where their names are in no order. -/
theorem listFiles_eq_crash_iff :
    (listFiles exchange).1 = .error (.crash crash) ↔
      ∃ files, exchange.core.files = some files ∧
        FileStore.listing files = .error (.crash crash) := by
  unfold listFiles
  rw [withFiles_eq]
  cases exchange.core.files with
  | none => exact iff_of_false (Survives.reply noCard exchange crash) nofun
  | some files =>
    dsimp only
    cases listed : FileStore.listing files with
    | ok names =>
      refine iff_of_false (Survives.bind (.replyAll _) (fun _ => .reply _) exchange crash) ?_
      rintro ⟨_, ⟨⟩, crashed⟩
      exact nomatch listed.symm.trans crashed
    | error fault =>
      cases fault with
      | error e =>
        refine iff_of_false (Survives.reply _ exchange crash) ?_
        rintro ⟨_, ⟨⟩, crashed⟩
        exact nomatch listed.symm.trans crashed
      | crash other =>
        constructor
        · intro crashed
          cases crashed
          exact ⟨files, rfl, listed⟩
        · rintro ⟨_, ⟨⟩, crashed⟩
          cases listed.symm.trans crashed
          rfl

/-- Playing a file crashes just where the file is there, the reply before it is sent, and it is a
script whose run crashes. -/
theorem useFile_play_eq_crash_iff [Device δ] {file : Text} {files : φ} :
    (useFile .play file files exchange).1 = .error (.crash crash) ↔
      FileStore.holds file files = true ∧
        (ReplyPort.reply ("OK: Playing " ++ file) exchange.port).1 = .ok () ∧
        (exchange.core.player.playFile files file exchange.core.macros exchange.core.device).1 =
          .error (.crash crash) := by
  unfold useFile
  dsimp only
  by_cases held : FileStore.holds file files = true
  · rw [if_pos held, bind_eq, Handling.reply]
    dsimp only
    cases told : (ReplyPort.reply ("OK: Playing " ++ file) exchange.port).1 with
    | error e => exact iff_of_false nofun fun crashes => nomatch crashes.2.1
    | ok _ =>
      dsimp only [Except.mapError]
      rw [bind_eq, Handling.share]
      dsimp only
      cases played : (exchange.core.player.playFile files file exchange.core.macros
          exchange.core.device).1 with
      | ok _ =>
        exact iff_of_false (Survives.reply _ _ crash) fun crashes => nomatch crashes.2.2
      | error fault =>
        cases fault with
        | error e => exact iff_of_false nofun fun crashes => nomatch crashes.2.2
        | crash other =>
          constructor
          · intro crashed
            cases crashed
            exact ⟨held, rfl, rfl⟩
          · rintro ⟨-, -, same⟩
            cases same
            rfl
  · rw [if_neg held]
    exact iff_of_false (Survives.reply _ exchange crash) fun crashes => held crashes.1

/-- A command to play a file crashes just where the name is one and there is a place for files. -/
theorem obey_play_eq_crash_iff [Device δ] [KeyValueStore κ] {kind : LinkKind} {line : Line}
    {name : Text} :
    (obey kind line (.file .play name) exchange).1 = .error (.crash crash) ↔
      ∃ file files, FileName.ofUser? name = some file ∧ exchange.core.files = some files ∧
        (useFile .play file files exchange).1 = .error (.crash crash) := by
  unfold obey
  dsimp only
  cases named : FileName.ofUser? name with
  | none => exact iff_of_false (Survives.reply _ exchange crash) nofun
  | some file =>
    dsimp only
    rw [withFiles_eq]
    cases placed : exchange.core.files with
    | none => exact iff_of_false (Survives.reply noCard exchange crash) nofun
    | some files =>
      constructor
      · exact fun crashed => ⟨file, files, rfl, rfl, crashed⟩
      · rintro ⟨_, _, ⟨⟩, ⟨⟩, crashed⟩
        exact crashed

end Handling

namespace Session

variable [Device δ] [KeyValueStore κ] [FileStore φ] [ReplyPort ρ]

/-- Where the handling of a line crashes. -/
inductive Crashes (session : Session) (line : Line) (core : Core δ κ φ) (port : ρ) :
    Crash → Prop where
  /-- It lists names that are in no order. -/
  | lists {files : φ} {crash : Crash}
    (asks : LineRequest.ofLine session.kind core.settings.dualRelay session.state line =
      .obey .listFiles)
    (placed : core.files = some files)
    (unordered : FileStore.listing files = .error (.crash crash)) :
    Crashes session line core port crash
  /-- It plays a file that is there, the reply before it is sent, and the file is a script whose run
  crashes. -/
  | plays {name file : Text} {files : φ} {bytes : List UInt8} {crash : Crash}
    (asks : LineRequest.ofLine session.kind core.settings.dualRelay session.state line =
      .obey (.file .play name))
    (named : FileName.ofUser? name = some file) (placed : core.files = some files)
    (held : FileStore.holds file files = true)
    (told : (ReplyPort.reply ("OK: Playing " ++ file) port).1 = .ok ())
    (readable : FileStore.read file files = .ok bytes)
    (script : Dialect.detect (Text.decode bytes) = .script)
    (crashed : (core.player.script.run (Text.decode bytes) core.macros core.device).1 =
      .error (.crash crash)) : Crashes session line core port crash

/-- A command that crashes lists names that are in no order, or plays such a file. -/
theorem crashes_of_obey {session : Session} {line : Line} {core : Core δ κ φ} {port : ρ}
    {crash : Crash} {command : Command}
    (asks : LineRequest.ofLine session.kind core.settings.dualRelay session.state line =
      .obey command)
    (crashed : (Handling.obey session.kind line command ⟨.idle, core, port⟩).1 =
      .error (.crash crash)) : session.Crashes line core port crash := by
  by_cases listing : command = .listFiles
  · subst listing
    obtain ⟨files, placed, unordered⟩ := Handling.listFiles_eq_crash_iff.mp crashed
    exact .lists asks placed unordered
  by_cases playing : ∃ name, command = .file .play name
  · obtain ⟨name, rfl⟩ := playing
    obtain ⟨file, files, named, placed, used⟩ := Handling.obey_play_eq_crash_iff.mp crashed
    obtain ⟨held, told, played⟩ := Handling.useFile_play_eq_crash_iff.mp used
    obtain ⟨bytes, readable, script, stopped⟩ := Player.playFile_eq_crash_iff.mp played
    exact .plays asks named placed held told readable script stopped
  · have survives := Handling.Survives.obey session.kind line listing
      (fun name same => playing ⟨name, same⟩) ⟨.idle, core, port⟩ crash
    exact absurd crashed survives

/-- The handling of a line crashes just there. -/
theorem handled_eq_crash_iff {session : Session} {line : Line} {core : Core δ κ φ} {port : ρ}
    {crash : Crash} :
    (session.handled line core port).1 = .error (.crash crash) ↔
      session.Crashes line core port crash := by
  unfold handled
  constructor
  · intro crashed
    cases asks : LineRequest.ofLine session.kind core.settings.dualRelay session.state line with
    | collect file content =>
      rw [asks] at crashed
      cases crashed
    | finish file content =>
      rw [asks] at crashed
      exact absurd crashed (Handling.Survives.saveMacro file content ⟨.idle, core, port⟩ crash)
    | nothing =>
      rw [asks] at crashed
      cases crashed
    | act directive done =>
      rw [asks] at crashed
      exact absurd crashed (Handling.Survives.act directive done ⟨_, core, port⟩ crash)
    | answer question t =>
      rw [asks] at crashed
      exact absurd crashed (Handling.Survives.answer question t ⟨_, core, port⟩ crash)
    | obey command =>
      rw [asks] at crashed
      exact crashes_of_obey asks crashed
  · intro crashes
    cases crashes with
    | lists asks placed unordered =>
      rw [asks]
      exact Handling.listFiles_eq_crash_iff.mpr ⟨_, placed, unordered⟩
    | @plays name file files bytes _ asks named placed held told readable script stopped =>
      rw [asks]
      have played := Player.playFile_eq_crash_iff.mpr ⟨bytes, readable, script, stopped⟩
      have used : (Handling.useFile .play file files ⟨.idle, core, port⟩).1 =
          .error (.crash crash) := Handling.useFile_play_eq_crash_iff.mpr ⟨held, told, played⟩
      have obeyed : (Handling.obey session.kind line (.file .play name) ⟨.idle, core, port⟩).1 =
          .error (.crash crash) :=
        Handling.obey_play_eq_crash_iff.mpr ⟨file, files, named, placed, used⟩
      exact obeyed

end Session

end Keyfob
