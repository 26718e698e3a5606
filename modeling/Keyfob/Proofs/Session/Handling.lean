import Keyfob.Session.Basic

/-!
# Discreet handling

Most of what a line can ask for has nothing to do with what is secret. A handling is discreet
(`Handling.Discreet`) when all of its parts are: replies, looks at what anyone may see, work of the
device, files and recordings. The commands, the live actions and the saving of macros all are made
so. A discreet handling keeps the credentials, the codes and the store (`Discreet.keeps`), comes out
the same whatever credentials are held and stored, as long as there are as many of them
(`Discreet.hides`), and leaves the session waiting for what it waited for or for something that is
allowed (`Discreet.leads`).
-/
namespace Keyfob

variable {δ κ φ ρ α β : Type}

/-- The shared parts with other credentials held in memory. -/
def Core.holding (core : Core δ κ φ) (others : Credentials) : Core δ κ φ :=
  { core with credentials := others }

/-- The shared parts with other credentials held in memory and another store. -/
def Core.keeping (core : Core δ κ φ) (others : Credentials) (store : κ) : Core δ κ φ :=
  { core with credentials := others, store := store }

/-- The exchange with other credentials held in memory and another store. -/
def Exchange.keeping (exchange : Exchange δ κ φ ρ) (others : Credentials) (store : κ) :
    Exchange δ κ φ ρ :=
  { exchange with core := exchange.core.keeping others store }

/-- Everything that is secret is the same in two states of the shared parts. -/
structure Core.SameSecrets (before after : Core δ κ φ) : Prop where
  /-- The credentials are the same. -/
  credentials : after.credentials = before.credentials
  /-- The codes are the same. -/
  codes : after.codes = before.codes
  /-- The store is the same. -/
  store : after.store = before.store

/-- Other credentials and another store make no difference to a description of the device. -/
structure Core.SameOutline [KeyValueStore κ] (core : Core δ κ φ) (others : Credentials)
    (store : κ) : Prop where
  /-- There are as many credentials. -/
  count : others.list.length = core.credentials.list.length
  /-- A login code is stored just where one was. -/
  coded : (AccessCodes.stored? store).isSome = (AccessCodes.stored? core.store).isSome

namespace Core.SameSecrets

/-- Nothing changes where nothing is done. -/
theorem refl (core : Core δ κ φ) : core.SameSecrets core := ⟨rfl, rfl, rfl⟩

/-- What two steps keep in turn, they keep together. -/
theorem trans {first second third : Core δ κ φ} (earlier : first.SameSecrets second)
    (later : second.SameSecrets third) : first.SameSecrets third where
  credentials := later.credentials.trans earlier.credentials
  codes := later.codes.trans earlier.codes
  store := later.store.trans earlier.store

/-- Where what is secret is kept, so is the description of the device. -/
theorem outline [KeyValueStore κ] {before after : Core δ κ φ} (kept : before.SameSecrets after)
    {others : Credentials} {store : κ} (same : before.SameOutline others store) :
    after.SameOutline others store where
  count := by rw [kept.credentials, same.count]
  coded := by rw [kept.store, same.coded]

end Core.SameSecrets

/-- A session in this state waits for no answer. -/
def SessionState.asksNothing (state : SessionState) : Prop :=
  ∀ question, state ≠ .asking question

/-- The description of the device tells of the credentials only how many there are. -/
theorem Command.aboutLines_keeping [KeyValueStore κ] (kind : LinkKind) (core : Core δ κ φ)
    (others : Credentials) (store : κ) (same : core.SameOutline others store) :
    Command.aboutLines kind (core.keeping others store) = Command.aboutLines kind core := by
  unfold Command.aboutLines Core.keeping
  rw [same.count, same.coded]

namespace Handling

/-- What follows a handling starts from where that handling ends, unless it fails. -/
theorem bind_eq (first : Handling δ κ φ ρ α) (next : α → Handling δ κ φ ρ β)
    (exchange : Exchange δ κ φ ρ) :
    (first >>= next) exchange =
      match first exchange with
      | (.ok result, after) => next result after
      | (.error e, after) => (.error e, after) := by
  simp only [Bind.bind, ExceptT.bind, ExceptT.mk, StateT.bind]
  cases outcome : first exchange with
  | mk result after =>
    cases result with
    | ok value => rfl
    | error e => rfl

variable [Device δ] [KeyValueStore κ] [FileStore φ] [ReplyPort ρ]

/-- Play a file on the device. -/
def play (file : Text) (files : φ) : Handling δ κ φ ρ Unit :=
  share (.map .ofPlayback) fun core =>
    let (result, player, macros, device) := core.player.playFile files file core.macros core.device
    (result.map fun _ => (), { core with player := player, macros := macros, device := device })

/-- A handling that has nothing to do with what is secret, and leads the session to nothing but
what is allowed. -/
inductive Discreet (allowed : SessionState → Prop) : {α : Type} → Handling δ κ φ ρ α → Prop where
  /-- Nothing is done. -/
  | pure {α : Type} (result : α) : Discreet allowed (pure result)
  /-- The line fails or crashes. -/
  | throw {α : Type} (fault : Fault SessionError) :
    Discreet allowed (throw fault : Handling δ κ φ ρ α)
  /-- Two parts follow each other. -/
  | bind {α β : Type} {first : Handling δ κ φ ρ α} {next : α → Handling δ κ φ ρ β}
    (earlier : Discreet allowed first) (later : ∀ result, Discreet allowed (next result)) :
    Discreet allowed (first >>= next)
  /-- A reply that is given is sent. -/
  | reply (t : Text) : Discreet allowed (reply t)
  /-- The session waits for something that is allowed. -/
  | become {state : SessionState} (fine : allowed state) : Discreet allowed (become state)
  /-- A look is taken at what a description of the device may show. -/
  | look {α : Type} {f : Core δ κ φ → α}
    (hidden : ∀ (core : Core δ κ φ) (others : Credentials) (store : κ),
      core.SameOutline others store → f (core.keeping others store) = f core) :
    Discreet allowed (look f)
  /-- Files are written with what has nothing to do with secrets. -/
  | write {f : Core δ κ φ → φ → Except FileError Unit × Recorder × φ} (files : φ)
    (hidden : ∀ (core : Core δ κ φ) (others : Credentials) (store : κ),
      f (core.keeping others store) = f core) :
    Discreet allowed (write f files)
  /-- A recording is stopped. -/
  | stop : Discreet allowed stopRecording
  /-- Macro text is run. -/
  | relay (t : Text) : Discreet allowed (runMacros fun macros device => macros.run t device)
  /-- A directive is carried out. -/
  | direct (directive : Directive) :
    Discreet allowed (runMacros fun macros device => macros.runDirective directive device)
  /-- A chord is tapped. -/
  | tap (chord : Chord) : Discreet allowed (perform (Action.tap chord))
  /-- A file is played. -/
  | play (file : Text) (files : φ) : Discreet allowed (play file files)

namespace Discreet

variable {allowed : SessionState → Prop}

/-! ## What discreet handling keeps and hides -/

/-- What is allowed can be more. -/
theorem weaken {more : SessionState → Prop} {handling : Handling δ κ φ ρ α}
    (discreet : Discreet allowed handling) (fine : ∀ state, allowed state → more state) :
    Discreet more handling := by
  induction discreet with
  | pure result => exact .pure result
  | throw fault => exact .throw fault
  | bind _ _ first next => exact .bind first next
  | reply t => exact .reply t
  | become led => exact .become (fine _ led)
  | look hidden => exact .look hidden
  | write files hidden => exact .write files hidden
  | stop => exact .stop
  | relay t => exact .relay t
  | direct directive => exact .direct directive
  | tap chord => exact .tap chord
  | play file files => exact .play file files

/-- What is secret is kept. -/
theorem keeps {handling : Handling δ κ φ ρ α} (discreet : Discreet allowed handling)
    (exchange : Exchange δ κ φ ρ) : exchange.core.SameSecrets (handling exchange).2.core := by
  induction discreet generalizing exchange with
  | @bind _ _ first next _ _ earlier later =>
    have kept := earlier exchange
    rw [bind_eq]
    cases outcome : first exchange with
    | mk result after =>
      rw [outcome] at kept
      cases result with
      | ok value => exact kept.trans (later value after)
      | error e => exact kept
  | _ => exact ⟨rfl, rfl, rfl⟩

/-- The session waits for the same, or for something allowed. -/
theorem leads {handling : Handling δ κ φ ρ α} (discreet : Discreet allowed handling)
    (exchange : Exchange δ κ φ ρ) :
    (handling exchange).2.state = exchange.state ∨ allowed (handling exchange).2.state := by
  induction discreet generalizing exchange with
  | @bind _ _ first next _ _ earlier later =>
    have led := earlier exchange
    rw [bind_eq]
    cases outcome : first exchange with
    | mk result after =>
      rw [outcome] at led
      cases result with
      | error e => exact led
      | ok value =>
        cases later value after with
        | inr reached => exact .inr reached
        | inl same =>
          simp only [same]
          exact led
  | become fine => exact .inr fine
  | _ => exact .inl rfl

/-- The credentials that are held and stored make no difference to it, beyond what a description
of the device shows. -/
theorem hides {handling : Handling δ κ φ ρ α} (discreet : Discreet allowed handling)
    (exchange : Exchange δ κ φ ρ) (others : Credentials) (store : κ)
    (same : exchange.core.SameOutline others store) :
    handling (exchange.keeping others store) =
      ((handling exchange).1, (handling exchange).2.keeping others store) := by
  induction discreet generalizing exchange with
  | @bind _ _ first next discreet _ earlier later =>
    have kept := discreet.keeps exchange
    rw [bind_eq, bind_eq, earlier exchange same]
    cases outcome : first exchange with
    | mk result after =>
      rw [outcome] at kept
      cases result with
      | error e => rfl
      | ok value => exact later value after (kept.outline same)
  | @look _ f hidden =>
    have seen := hidden exchange.core others store same
    simp only [Handling.look, attempt, Exchange.keeping, seen]
  | @write f files hidden =>
    have seen := hidden exchange.core others store
    simp only [Handling.write, attempt, Exchange.keeping, seen]
    rfl
  | _ => rfl

/-! ## Handlings that are discreet -/

/-- Replies that are given are discreet. -/
theorem replyAll (replies : List Text) :
    Discreet allowed (replyAll replies : Handling δ κ φ ρ Unit) := by
  induction replies with
  | nil => exact .pure ()
  | cons t ts ih => exact .bind (.reply t) fun _ => ih

/-- What is discreet with every place for files is discreet where there may be none. -/
theorem withFiles {f : φ → Handling δ κ φ ρ Unit}
    (discreet : ∀ files, Discreet allowed (f files)) :
    Discreet allowed (withFiles f : Handling δ κ φ ρ Unit) := by
  refine .bind (.look fun _ _ _ _ => rfl) fun place => ?_
  cases place with
  | none => exact .reply noCard
  | some files => exact discreet files

/-- A command about one file is discreet, and leads to no question. -/
theorem useFile (command : FileCommand) (file : Text) (files : φ) :
    Discreet SessionState.asksNothing (useFile command file files : Handling δ κ φ ρ Unit) := by
  unfold Handling.useFile
  cases command with
  | record =>
    refine .bind .stop fun stopped => ?_
    -- The recording starts in the same way whether or not another one was stopped before.
    cases stopped
    case' some stopped => refine .bind (.reply _) fun _ => ?_
    all_goals
      refine .bind (.write files fun _ _ _ => rfl) fun result => ?_
      cases result with
      | ok _ => exact .reply _
      | error _ => exact .reply _
  | play =>
    dsimp only
    split
    · exact .bind (.reply _) fun _ => .bind (.play file files) fun _ => .reply _
    · exact .reply _
  | view =>
    dsimp only
    split
    · exact .bind (.replyAll _) fun _ => .reply _
    · exact .reply _
    · exact .reply _
  | save => exact .bind (.reply _) fun _ => .become fun _ => nofun

/-- Listing the files is discreet. -/
theorem listFiles : Discreet allowed (listFiles : Handling δ κ φ ρ Unit) := by
  refine .withFiles fun files => ?_
  split
  · exact .bind (.replyAll _) fun _ => .reply _
  · exact .reply _
  · exact .throw _

/-- Every command but one that asks for a code is discreet, and leads to no question. -/
theorem obey (kind : LinkKind) (line : Line) (command : Command)
    (unasked : ∀ question, command ≠ .ask question) :
    Discreet SessionState.asksNothing (obey kind line command : Handling δ κ φ ρ Unit) := by
  unfold Handling.obey
  cases command with
  | help => exact .replyAll _
  | about => exact .bind (.look (Command.aboutLines_keeping kind)) fun _ => .replyAll _
  | ask question => exact absurd rfl (unasked question)
  | stopRecording =>
    refine .bind .stop fun stopped => ?_
    cases stopped with
    | none => exact .reply _
    | some stopped => exact .reply _
  | listFiles => exact .listFiles
  | file command name =>
    dsimp only
    split
    · exact .reply _
    · exact .withFiles fun files => .useFile _ _ files
  | noFile => exact .reply _
  | relay =>
    refine .bind (.relay line.text) fun _ => ?_
    split
    · exact .tap _
    · exact .pure ()
  | unknown => exact .reply _

/-- A live action is discreet. -/
theorem act (directive : Directive) (done : Text) :
    Discreet allowed (act directive done : Handling δ κ φ ρ Unit) := by
  refine .bind (.direct directive) fun _ => .bind (.look fun _ _ _ _ => rfl) fun place => ?_
  cases place with
  | none => exact .reply done
  | some files =>
    refine .bind ?_ fun _ => .reply done
    exact .bind (.write files fun _ _ _ => rfl) fun _ => .pure ()

/-- Saving a macro is discreet. -/
theorem saveMacro (file content : Text) :
    Discreet allowed (saveMacro file content : Handling δ κ φ ρ Unit) := by
  refine .withFiles fun files => .bind (.write files fun _ _ _ => rfl) fun result => ?_
  cases result with
  | ok _ => exact .reply _
  | error _ => exact .reply _

/-- Asking a question is discreet, and leads to that question. -/
theorem ask {question : Question} (fine : allowed (.asking question)) :
    Discreet allowed (ask question : Handling δ κ φ ρ Unit) :=
  .bind (.reply _) fun _ => .become fine

end Discreet

end Handling

end Keyfob
