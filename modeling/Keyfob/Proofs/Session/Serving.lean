import Keyfob.Dongle.Port
import Keyfob.Proofs.Session.Dialog

/-!
# What one line can do

A port serves a line by handling it and, where that fails, by dropping the dialog, letting go of
the host and reporting the failure (`Session.serve`, which `Port.serveLine` is). Where the handling
crashes, nothing is put in order. From what a line is read as (`LineRequest.Reading`) it follows
which lines can change what is secret, which can let it show, and which lead a session to a
question.
-/
namespace Keyfob

variable {δ κ φ ρ : Type} [Device δ] [ReplyPort ρ]

namespace Session

/-- What a port makes of the handling of a line: where it failed, the dialog is dropped, the
host is let go, and the failure is told. -/
def settle (kind : LinkKind) (outcome : Except (Fault SessionError) Unit × Exchange δ κ φ ρ) :
    Session × Core δ κ φ × ρ :=
  match outcome.1 with
  | .ok () => (⟨kind, outcome.2.state⟩, outcome.2.core, outcome.2.port)
  | .error (.crash _) => (⟨kind, outcome.2.state⟩, outcome.2.core, outcome.2.port)
  | .error (.error e) =>
    let told :=
      match e.reply? with
      | some t => (ReplyPort.reply t outcome.2.port).2
      | none => outcome.2.port
    (⟨kind, .idle⟩,
      { outcome.2.core with device := (Device.perform .releaseAll outcome.2.core.device).2 }, told)

section Settling

variable {kind : LinkKind} {outcome : Except (Fault SessionError) Unit × Exchange δ κ φ ρ}

/-- Putting a failure in order changes nothing that is secret. -/
theorem sameSecrets_settle : outcome.2.core.SameSecrets (settle kind outcome).2.1 := by
  unfold settle
  split
  · exact .refl outcome.2.core
  · exact .refl outcome.2.core
  · exact ⟨rfl, rfl, rfl⟩

end Settling

end Session

variable [KeyValueStore κ] [FileStore φ]

namespace Session

/-- What handling a line comes to, before a failure is put in order. -/
def handled (session : Session) (line : Line) (core : Core δ κ φ) (port : ρ) :
    Except (Fault SessionError) Unit × Exchange δ κ φ ρ :=
  Handling.fulfil session.kind line
    (LineRequest.ofLine session.kind core.settings.dualRelay session.state line)
    ⟨session.state, core, port⟩

/-- Handle one line and, where that fails, put everything in order. -/
def serve (session : Session) (line : Line) (core : Core δ κ φ) (port : ρ) :
    Session × Core δ κ φ × ρ := settle session.kind (session.handled line core port)

end Session

/-- A port serves a line by handling it, and recovers where that fails. A crash is no failure. -/
theorem Port.serveLine_handled (port : Port) (core : Core δ κ φ) (line : Line) :
    port.serveLine core line =
      match port.session.handled line core port.link with
      | (.ok (), after) =>
        (.ok (), { port with link := after.port, session := ⟨port.session.kind, after.state⟩ },
          after.core)
      | (.error (.error e), after) =>
        (.ok (), recover e
          { port with link := after.port, session := ⟨port.session.kind, after.state⟩ } after.core)
      | (.error (.crash crash), after) =>
        (.error crash,
          { port with link := after.port, session := ⟨port.session.kind, after.state⟩ },
          after.core) := by
  unfold Port.serveLine Session.handle Session.handled
  dsimp only [ExceptT.run]
  cases Handling.fulfil port.session.kind line
      (LineRequest.ofLine port.session.kind core.settings.dualRelay port.session.state line)
      ⟨port.session.state, core, port.link⟩ with
  | mk result after =>
    cases result with
    | ok _ => rfl
    | error fault => cases fault <;> rfl

/-- A port serves a line as its session does over its link, and crashes where the handling does. -/
theorem Port.serveLine_eq (port : Port) (core : Core δ κ φ) (line : Line) :
    let served := port.session.serve line core port.link
    (port.serveLine core line).2.1.session = served.1 ∧
      (port.serveLine core line).2.1.link = served.2.2 ∧
      (port.serveLine core line).2.2 = served.2.1 ∧
      (port.serveLine core line).1 =
        Fault.survival (port.session.handled line core port.link).1 := by
  rw [Port.serveLine_handled]
  unfold Session.serve
  cases port.session.handled line core port.link with
  | mk result after =>
    cases result with
    | ok _ => exact ⟨rfl, rfl, rfl, rfl⟩
    | error fault =>
      cases fault with
      | error e => exact ⟨rfl, rfl, rfl, rfl⟩
      | crash crash => exact ⟨rfl, rfl, rfl, rfl⟩

/-- Whether a line is left out of every dialog: it is blank, or a live action of a wireless
link. -/
def Line.isAside (kind : LinkKind) (line : Line) : Bool :=
  line.text.trim.isEmpty || kind.isWireless && (LineRequest.live? line.text.trim).isSome

namespace LineRequest

/-- What a line is read as by a session that waits for something. -/
inductive Reading (kind : LinkKind) (relaying : Bool) (line : Line) :
    SessionState → LineRequest → Prop where
  /-- A line of a macro is collected. -/
  | collects (file content more : Text) :
    Reading kind relaying line (.collecting file content) (.collect file more)
  /-- A blank line ends a macro. -/
  | finishes (file content : Text) :
    Reading kind relaying line (.collecting file content) (.finish file content)
  /-- Elsewhere, a blank line asks for nothing. -/
  | blank (state : SessionState) (aside : line.isAside kind = true) :
    Reading kind relaying line state .nothing
  /-- A live action is carried out in the middle of a dialog. -/
  | live (state : SessionState) (directive : Directive) (done : Text)
    (aside : line.isAside kind = true) :
    Reading kind relaying line state (.act directive done)
  /-- Any other line is the answer to the question that was asked. -/
  | answers (question : Question) (significant : line.isAside kind = false) :
    Reading kind relaying line (.asking question) (.answer question line.text.trim)
  /-- Or a command, where nothing was asked. -/
  | obeys (significant : line.isAside kind = false) :
    Reading kind relaying line .idle (.obey (Command.ofLine kind relaying line.text.trim))

/-- What a line of a wireless link is at once, if anything, is a live action. -/
theorem exists_act_of_live? {t : Text} {request : LineRequest} (live : live? t = some request) :
    ∃ directive done, request = .act directive done := by
  unfold live? at live
  repeat' split at live
  all_goals cases live
  all_goals exact ⟨_, _, rfl⟩

/-- Where no macro is collected, a line is blank, a live action, or part of the dialog. -/
theorem reading_of_dialog {kind : LinkKind} {relaying : Bool} {line : Line} {state : SessionState}
    {dialog : LineRequest} :
    (line.isAside kind = false → Reading kind relaying line state dialog) →
      Reading kind relaying line state
        (if line.text.trim.isEmpty then .nothing
          else match kind with
            | .serial => dialog
            | .ble => (live? line.text.trim).getD dialog) := by
  intro read
  by_cases blank : line.text.trim.isEmpty = true
  · rw [if_pos blank]
    exact .blank state (by rw [Line.isAside, blank, Bool.true_or])
  · rw [if_neg blank]
    have spoken : line.text.trim.isEmpty = false := Bool.eq_false_iff.mpr blank
    cases kind with
    | serial =>
      apply read
      rw [Line.isAside, spoken, LinkKind.isWireless, Bool.false_and, Bool.or_false]
    | ble =>
      cases live : live? line.text.trim with
      | none =>
        apply read
        rw [Line.isAside, spoken, live, Option.isSome_none, Bool.and_false, Bool.or_false]
      | some request =>
        obtain ⟨directive, done, rfl⟩ := exists_act_of_live? live
        refine .live state directive done ?_
        rw [Line.isAside, live, LinkKind.isWireless, Option.isSome_some, Bool.and_true,
          Bool.or_true]

/-- Every line is read in one of these ways. -/
theorem reading_ofLine (kind : LinkKind) (relaying : Bool) (state : SessionState) (line : Line) :
    Reading kind relaying line state (ofLine kind relaying state line) := by
  cases state with
  | idle => exact reading_of_dialog fun significant => .obeys significant
  | asking question => exact reading_of_dialog fun significant => .answers question significant
  | collecting file content =>
    unfold ofLine
    by_cases blank : line.text.trim.isEmpty = true
    · simp only [blank, if_true]
      exact .finishes file content
    · simp only [blank]
      exact .collects file content _

end LineRequest

namespace Session

/-- How a significant line leads a session from what it waits for to a question. -/
inductive LeadsTo (kind : LinkKind) (relaying : Bool) (primary : Pin) (t : Text) :
    SessionState → Question → Prop where
  /-- A command asks the question. -/
  | commands {question : Question} (asked : Command.ofLine kind relaying t = .ask question) :
    LeadsTo kind relaying primary t .idle question
  /-- A right code leads to the next question. -/
  | grants {question next : Question} (following : question.next? = some next)
    (right : Pin.lenient t = primary) : LeadsTo kind relaying primary t (.asking question) next

/-- What a session may wait for after a line: no answer, or one to a question that the line
leads to. -/
def allows (session : Session) (line : Line) (core : Core δ κ φ) (state : SessionState) : Prop :=
  ∀ question, state = .asking question → line.isAside session.kind = false ∧
    LeadsTo session.kind core.settings.dualRelay core.codes.primary line.text.trim
      session.state question

/-- The forms that the handling of a line takes. -/
inductive Form (session : Session) (line : Line) (core : Core δ κ φ) (port : ρ) : Prop where
  /-- It is discreet, from the state of the session or from a state that no question is part
  of. -/
  | discreet (before : SessionState) (handling : Handling δ κ φ ρ Unit)
    (kept : ∀ question, before = .asking question →
      session.state = .asking question ∧ line.isAside session.kind = true)
    (discreet : handling.Discreet (session.allows line core))
    (handles : ∀ (others : Credentials) (store : κ),
      session.handled line (core.keeping others store) port =
        handling ⟨before, core.keeping others store, port⟩)
  /-- It sends the credentials after a right code. -/
  | lists (waiting : session.state = .asking .codeForListing)
    (significant : line.isAside session.kind = false)
    (right : Pin.lenient line.text.trim = core.codes.primary)
    (handles : session.handled line core port =
      Handling.sendListing core.credentials ⟨.idle, core, port⟩)
  /-- It replaces the credentials. -/
  | updates (waiting : session.state = .asking .credentials)
    (handles : ∀ (others : Credentials) (store : κ),
      session.handled line (core.keeping others store) port =
        Handling.answer .credentials line.text.trim
          ⟨session.state, core.keeping others store, port⟩)
  /-- It chooses a login code. -/
  | chooses (waiting : session.state = .asking .newCode)
    (handles : ∀ (others : Credentials) (store : κ),
      session.handled line (core.keeping others store) port =
        Handling.answer .newCode line.text.trim
          ⟨session.state, core.keeping others store, port⟩)

/-- A code that another question follows is answered discreetly. -/
theorem form_of_next {session : Session} {line : Line} {core : Core δ κ φ} {port : ρ}
    {question next : Question} (waiting : session.state = .asking question)
    (following : question.next? = some next) (significant : line.isAside session.kind = false)
    (handles : ∀ (others : Credentials) (store : κ),
      session.handled line (core.keeping others store) port =
        Handling.answer question line.text.trim
          ⟨session.state, core.keeping others store, port⟩) :
    Form session line core port := by
  refine .discreet .idle
    (if Pin.lenient line.text.trim = core.codes.primary then Handling.ask next
      else Handling.refuse) nofun ?_ fun others store => ?_
  · split
    · next right =>
      apply Handling.Discreet.ask
      intro asked same
      cases same
      rw [waiting]
      exact ⟨significant, .grants following right⟩
    · exact Handling.Discreet.refuse nofun
  · rw [handles others store, Handling.answer_of_next following]
    rfl

/-- The handling of every line takes one of these forms. -/
theorem form (session : Session) (line : Line) (core : Core δ κ φ) (port : ρ) :
    Form session line core port := by
  obtain ⟨kind, state⟩ := session
  have handles (others : Credentials) (store : κ) :
      handled ⟨kind, state⟩ line (core.keeping others store) port =
        Handling.fulfil kind line (LineRequest.ofLine kind core.settings.dualRelay state line)
          ⟨state, core.keeping others store, port⟩ := rfl
  have reading := LineRequest.reading_ofLine kind core.settings.dualRelay state line
  generalize LineRequest.ofLine kind core.settings.dualRelay state line = request at handles reading
  cases reading with
  | collects file content more =>
    exact .discreet (.collecting file content) (Handling.become (.collecting file more)) nofun
      (Handling.Discreet.become nofun) handles
  | finishes file content =>
    exact .discreet .idle (Handling.saveMacro file content) nofun
      (Handling.Discreet.saveMacro file content) handles
  | blank state aside =>
    exact .discreet state _ (fun _ same => ⟨same, aside⟩) (Handling.Discreet.pure ()) handles
  | live state directive done aside =>
    exact .discreet state _ (fun _ same => ⟨same, aside⟩) (Handling.Discreet.act directive done)
      handles
  | answers question significant =>
    cases question with
    | codeForUpdate => exact form_of_next rfl rfl significant handles
    | oldCode => exact form_of_next rfl rfl significant handles
    | credentials => exact .updates rfl handles
    | newCode => exact .chooses rfl handles
    | codeForListing =>
      by_cases right : Pin.lenient line.text.trim = core.codes.primary
      · refine .lists rfl significant right ?_
        exact (handles core.credentials core.store).trans
          (Handling.answer_codeForListing_of_right right)
      · refine .discreet .idle Handling.refuse nofun (Handling.Discreet.refuse nofun) ?_
        intro others store
        exact (handles others store).trans (Handling.answer_codeForListing_of_wrong right)
  | obeys significant =>
    by_cases asks : ∃ question,
        Command.ofLine kind core.settings.dualRelay line.text.trim = .ask question
    · obtain ⟨question, asked⟩ := asks
      rw [asked] at handles
      refine .discreet .idle (Handling.ask question) nofun (Handling.Discreet.ask ?_) handles
      intro other same
      cases same
      exact ⟨significant, .commands asked⟩
    · have unasked (question : Question) :
          Command.ofLine kind core.settings.dualRelay line.text.trim ≠ .ask question :=
        fun asked => asks ⟨question, asked⟩
      refine .discreet .idle (Handling.obey kind line
        (Command.ofLine kind core.settings.dualRelay line.text.trim)) nofun ?_ handles
      apply (Handling.Discreet.obey kind line _ unasked).weaken
      intro state silent question same
      exact absurd same (silent question)

section Facts

variable (session : Session) (line : Line) (core : Core δ κ φ) (port : ρ)

/-- Only a line that a session takes for credentials changes those that are held. -/
theorem credentials_serve (elsewhere : session.state ≠ .asking .credentials) :
    (session.serve line core port).2.1.credentials = core.credentials := by
  have settled : (session.handled line core port).2.core.SameSecrets
      (session.serve line core port).2.1 := sameSecrets_settle
  rw [settled.credentials]
  cases form session line core port with
  | discreet before handling kept discreet handles =>
    have own : session.handled line core port = handling ⟨before, core, port⟩ :=
      handles core.credentials core.store
    rw [own, (discreet.keeps ⟨before, core, port⟩).credentials]
  | lists waiting significant right handles =>
    rw [handles]
    exact ((Handling.Discreet.sendListing core.credentials).keeps ⟨.idle, core, port⟩).credentials
  | updates waiting handles => exact absurd waiting elsewhere
  | chooses waiting handles =>
    have own : session.handled line core port = _ := handles core.credentials core.store
    rw [own, Handling.answer_newCode]
    cases Pin.strict? line.text.trim with
    | none => rfl
    | some pin => rfl

end Facts

end Session

end Keyfob
