import Keyfob.Proofs.Session.Handling

/-!
# What the handling of a line leaves

A handling is within a relation of the shared parts when they are so related before and after it,
however it ends (`Handling.Within`). Where a relation holds of doing nothing and of what is done in
turn (`Core.Course`), replies, looks, questions and lists are within it, and so is every answer
where the relation lets the secrets change (`Core.Secretive`). Commands are within it as far as it
lets the device work (`Core.Working`) and the recorder and the files change (`Core.Writing`).
-/
namespace Keyfob

variable {δ κ φ ρ α β ε : Type}

/-- A relation of the shared parts before and after what is done that lets nothing be done, and
things one after another. -/
structure Core.Course (r : Core δ κ φ → Core δ κ φ → Prop) : Prop where
  /-- Nothing may be done. -/
  refl : ∀ core, r core core
  /-- What may be done may be done in turn. -/
  trans : ∀ {first second third}, r first second → r second third → r first third

/-- A relation that lets the credentials, the codes and the store change. -/
def Core.Secretive (r : Core δ κ φ → Core δ κ φ → Prop) : Prop :=
  ∀ (core : Core δ κ φ) (credentials : Credentials) (codes : AccessCodes) (store : κ),
    r core { core with credentials := credentials, codes := codes, store := store }

/-- A relation that lets the device work, and what makes it work. -/
def Core.Working (r : Core δ κ φ → Core δ κ φ → Prop) : Prop :=
  ∀ (core : Core δ κ φ) (player : Player) (macros : MacroEngine) (device : δ),
    r core { core with player := player, macros := macros, device := device }

/-- A relation that lets the recorder and the files change. -/
def Core.Writing (r : Core δ κ φ → Core δ κ φ → Prop) : Prop :=
  ∀ (core : Core δ κ φ) (recorder : Recorder) (files : Option φ),
    r core { core with recorder := recorder, files := files }

namespace Handling

/-- The shared parts are related before and after a handling. -/
def Within (r : Core δ κ φ → Core δ κ φ → Prop) (handling : Handling δ κ φ ρ α) : Prop :=
  ∀ exchange, r exchange.core (handling exchange).2.core

namespace Within

variable {r : Core δ κ φ → Core δ κ φ → Prop} (course : Core.Course r)

/-- What is done with the shared parts is within a relation that lets it be done. -/
theorem attempt {f : Core δ κ φ → α × Core δ κ φ} (within : ∀ core, r core (f core).2) :
    Within r (attempt f : Handling δ κ φ ρ α) := fun exchange => within exchange.core

/-- So is what may fail. -/
theorem share {fault : ε → Fault SessionError} {f : Core δ κ φ → Except ε α × Core δ κ φ}
    (within : ∀ core, r core (f core).2) : Within r (share fault f : Handling δ κ φ ρ α) :=
  fun exchange => within exchange.core

include course

/-- Two parts are within it one after another. -/
theorem bind {first : Handling δ κ φ ρ α} {next : α → Handling δ κ φ ρ β}
    (earlier : Within r first) (later : ∀ result, Within r (next result)) :
    Within r (first >>= next) := by
  intro exchange
  have before := earlier exchange
  rw [bind_eq]
  cases outcome : first exchange with
  | mk result after =>
    rw [outcome] at before
    cases result with
    | ok value => exact course.trans before (later value after)
    | error e => exact before

/-- Doing nothing is within it. -/
theorem pure (result : α) : Within r (pure result : Handling δ κ φ ρ α) :=
  fun exchange => course.refl exchange.core

/-- Failing and crashing are within it. -/
theorem throw (fault : Fault SessionError) : Within r (throw fault : Handling δ κ φ ρ α) :=
  fun exchange => course.refl exchange.core

/-- Waiting for something is within it. -/
theorem become (state : SessionState) : Within r (become state : Handling δ κ φ ρ Unit) :=
  fun exchange => course.refl exchange.core

/-- Looking is within it. -/
theorem look (f : Core δ κ φ → α) : Within r (look f : Handling δ κ φ ρ α) :=
  fun exchange => course.refl exchange.core

variable [ReplyPort ρ]

/-- A reply is within it. -/
theorem reply (t : Text) : Within r (reply t : Handling δ κ φ ρ Unit) :=
  fun exchange => course.refl exchange.core

/-- Replies are within it. -/
theorem replyAll (replies : List Text) : Within r (replyAll replies : Handling δ κ φ ρ Unit) := by
  induction replies with
  | nil => exact .pure course ()
  | cons t ts ih => exact .bind course (.reply course t) fun _ => ih

/-- Asking a question is within it. -/
theorem ask (question : Question) : Within r (ask question : Handling δ κ φ ρ Unit) :=
  .bind course (.reply course _) fun _ => .become course _

/-- What is done with any files is within it where there may be none. -/
theorem withFiles {f : φ → Handling δ κ φ ρ Unit} (within : ∀ files, Within r (f files)) :
    Within r (withFiles f) := by
  refine .bind course (.look course _) fun place => ?_
  cases place with
  | none => exact .reply course noCard
  | some files => exact within files

/-- What a right code lets through is within it behind the code. -/
theorem authorize (t : Text) {granted : Handling δ κ φ ρ Unit} (within : Within r granted) :
    Within r (authorize t granted) := by
  refine .bind course (.look course _) fun right => ?_
  split
  · exact within
  · exact .bind course (.reply course _) fun _ => .become course _

/-- An answer is within a relation that lets the secrets change. -/
theorem answer [KeyValueStore κ] (secretive : Core.Secretive r) (question : Question) (t : Text) :
    Within r (answer question t : Handling δ κ φ ρ Unit) := by
  refine .bind course (.become course _) fun _ => ?_
  cases question with
  | codeForUpdate => exact .authorize course t (.ask course _)
  | oldCode => exact .authorize course t (.ask course _)
  | codeForListing =>
    exact .authorize course t (.bind course (.look course _) fun _ =>
      .bind course (.replyAll course _) fun _ => .reply course _)
  | credentials =>
    refine .bind course (.attempt fun core => secretive core _ core.codes _) fun result => ?_
    cases result with
    | ok _ => exact .reply course _
    | error _ => exact .reply course _
  | newCode =>
    dsimp only
    split
    · refine .bind course (.attempt fun core => secretive core core.credentials _ _)
        fun result => ?_
      cases result with
      | ok _ => exact .reply course _
      | error _ => exact .reply course _
    · exact .reply course _

variable [FileStore φ]

/-- Listing the files is within it. -/
theorem listFiles : Within r (listFiles : Handling δ κ φ ρ Unit) := by
  refine .withFiles course fun files => ?_
  split
  · exact .bind course (.replyAll course _) fun _ => .reply course _
  · exact .reply course _
  · exact .throw course _

/-- Saving a macro is within a relation that lets the files change. -/
theorem saveMacro (writing : Core.Writing r) (file content : Text) :
    Within r (saveMacro file content : Handling δ κ φ ρ Unit) := by
  refine .withFiles course fun files =>
    .bind course (.attempt fun core => writing core core.recorder _) fun result => ?_
  cases result with
  | ok _ => exact .reply course _
  | error _ => exact .reply course _

variable [Device δ]

/-- A command about a file is within it, as far as playing needs the device, and recording the
recorder and the files. -/
theorem useFile (command : FileCommand) (file : Text) (files : φ)
    (works : command = .play → Core.Working r) (writes : command = .record → Core.Writing r) :
    Within r (useFile command file files : Handling δ κ φ ρ Unit) := by
  unfold Handling.useFile
  cases command with
  | record =>
    have writing := writes rfl
    refine .bind course (.attempt fun core => writing core _ core.files) fun stopped => ?_
    -- The recording starts in the same way whether or not another one was stopped before.
    cases stopped
    case' some stopped => refine .bind course (.reply course _) fun _ => ?_
    all_goals
      refine .bind course (.attempt fun core => writing core _ _) fun result => ?_
      cases result with
      | ok _ => exact .reply course _
      | error _ => exact .reply course _
  | play =>
    have working := works rfl
    dsimp only
    split
    · exact .bind course (.reply course _) fun _ =>
        .bind course (.share fun core => working core _ _ _) fun _ => .reply course _
    · exact .reply course _
  | view =>
    dsimp only
    split
    · exact .bind course (.replyAll course _) fun _ => .reply course _
    · exact .reply course _
    · exact .reply course _
  | save => exact .bind course (.reply course _) fun _ => .become course _

/-- A command is within it, as far as it needs the device to be relayed or to play a file, and the
recorder and the files to begin or end a recording. -/
theorem obey [KeyValueStore κ] (kind : LinkKind) (line : Line) (command : Command)
    (works : (command = .relay ∨ ∃ name, command = .file .play name) → Core.Working r)
    (writes : (command = .stopRecording ∨ ∃ name, command = .file .record name) →
      Core.Writing r) :
    Within r (obey kind line command : Handling δ κ φ ρ Unit) := by
  unfold Handling.obey
  cases command with
  | help => exact .replyAll course _
  | about => exact .bind course (.look course _) fun _ => .replyAll course _
  | ask question => exact .ask course question
  | stopRecording =>
    have writing := writes (.inl rfl)
    refine .bind course (.attempt fun core => writing core _ core.files) fun stopped => ?_
    cases stopped with
    | none => exact .reply course _
    | some stopped => exact .reply course _
  | listFiles => exact .listFiles course
  | file command name =>
    dsimp only
    split
    · exact .reply course _
    · refine .withFiles course fun files => .useFile course _ _ files ?_ ?_
      · rintro rfl
        exact works (.inr ⟨name, rfl⟩)
      · rintro rfl
        exact writes (.inr ⟨name, rfl⟩)
  | noFile => exact .reply course _
  | relay =>
    have working := works (.inl rfl)
    refine .bind course (.share fun core => working core core.player _ _) fun _ => ?_
    split
    · exact .share fun core => working core core.player core.macros _
    · exact .pure course ()
  | unknown => exact .reply course _

end Within

/-- What is done with the files is done with those there are. -/
theorem withFiles_eq [ReplyPort ρ] (f : φ → Handling δ κ φ ρ Unit) (exchange : Exchange δ κ φ ρ) :
    withFiles f exchange =
      match exchange.core.files with
      | some files => f files exchange
      | none => reply noCard exchange := by
  unfold withFiles
  rw [bind_eq]
  simp only [look, attempt]
  cases exchange.core.files with
  | none => rfl
  | some files => rfl

end Handling

end Keyfob
