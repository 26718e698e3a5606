import Keyfob.Proofs.Session.Serving
import Keyfob.Proofs.Session.Within
import Keyfob.Proofs.Text.Ends

/-!
# Lines that touch the host

Handling a line does something to the device that acts on the host only over a wireless link that
is not collecting a macro, and only where the line is a live action or, in an idle session, plays a
file that is there or is relayed (`Session.handled_touches`). Everything else is still
(`Handling.Still`): replies, looks, files, recordings, and whatever a dialog makes of its answers.
-/
namespace Keyfob

variable {δ κ φ ρ α β : Type}

/-- The words at the front of live actions. -/
def LineRequest.liveWords : List Text := ["TYPE:", "KEY:", "MOUSE:", "GAMEPAD:"]

namespace Command

/-- The commands that stand alone, in capital letters. -/
def words : List Text :=
  ["HELP", "ABOUT", "PWUPDATE", "RETRIEVEPW", "RETRIVEPW", "CHANGELOGIN", "STOPRECORD", "STOP",
    "LIST", "RECORD", "PLAY", "VIEW", "SAVE_MACRO"]

/-- A text is a word in any letter case and an argument behind it. -/
def Calls (word t argument : Text) : Prop :=
  ∃ lead, t = lead ++ argument ∧ Text.sameLetters lead word = true

/-- A text is none of the commands. -/
structure Unrecognised (t : Text) : Prop where
  /-- It is none that stands alone. -/
  word : t.upper ∉ words
  /-- It is none with an argument. -/
  argument : ∀ word ∈ (["RECORD:", "PLAY:", "VIEW:", "SAVE_MACRO:"] : List Text),
    ∀ argument, ¬Calls word t argument

/-- What follows a word and a colon is what the word is called with. -/
theorem argument?_eq_some_iff {word t argument : Text} :
    argument? word t = some argument ↔ Calls (word ++ ":") t argument := by
  unfold argument? Calls
  dsimp only
  constructor
  · intro found
    split at found
    · next same =>
      cases found
      exact ⟨_, (List.take_append_drop _ t).symm, same⟩
    · cases found
  · rintro ⟨lead, rfl, same⟩
    have long : lead.length = (word ++ ":").length := by
      have letters := congrArg List.length (beq_iff_eq.mp same)
      simpa [Text.lower] using letters
    rw [← long, List.take_left, if_pos same, List.drop_left]

/-- A text is none of the commands about files and recordings. -/
theorem of_ofWireless?_eq_none {t : Text} (unknown : ofWireless? t = none) :
    t.upper ≠ "STOPRECORD" ∧ t.upper ≠ "STOP" ∧ t.upper ≠ "LIST" ∧
      ∀ command : FileCommand, t.upper ≠ command.word ∧ argument? command.word t = none := by
  unfold ofWireless? at unknown
  split at unknown
  · cases unknown
  next noStop =>
  split at unknown
  · cases unknown
  next noList =>
  split at unknown
  · split at unknown <;> cases unknown
  next unfound =>
  split at unknown
  · cases unknown
  next noWord =>
  rw [not_or] at noStop
  refine ⟨noStop.1, noStop.2, noList, fun command => ?_⟩
  have listed : command ∈ FileCommand.all := by cases command <;> decide
  constructor
  · intro same
    exact noWord (List.any_eq_true.mpr ⟨command, listed, beq_iff_eq.mpr same⟩)
  · exact Option.map_eq_none_iff.mp (List.findSome?_eq_none_iff.mp unfound command listed)

/-- No command about files and recordings is to relay a line. -/
theorem ofWireless?_ne_relay (t : Text) : ofWireless? t ≠ some .relay := by
  unfold ofWireless?
  repeat' split
  all_goals nofun

/-- A command about a file calls it by its word. -/
theorem argument?_of_ofWireless? {t name : Text} {command : FileCommand}
    (found : ofWireless? t = some (.file command name)) :
    argument? command.word t = some name := by
  unfold ofWireless? at found
  split at found
  · cases found
  split at found
  · cases found
  split at found
  · next first =>
    split at found
    · cases found
    · cases found
      obtain ⟨other, _, called⟩ := List.exists_of_findSome?_eq_some first
      obtain ⟨argument, same, paired⟩ := Option.map_eq_some_iff.mp called
      cases paired
      exact same
  · split at found <;> cases found

/-- Whether a command is obeyed over every kind of link. -/
def isCommon : Command → Bool
  | help => true
  | about => true
  | ask _ => true
  | unknown => true
  | _ => false

/-- Any other command comes over a wireless link, and the line is none of those that are obeyed
over every kind of link. -/
theorem of_ofLine_of_not_common {kind : LinkKind} {relaying : Bool} {t : Text}
    (beyond : (ofLine kind relaying t).isCommon = false) :
    kind = .ble ∧
      (ofWireless? t).getD (if relaying then .relay else .unknown) = ofLine kind relaying t ∧
      t.upper ≠ "HELP" ∧ t.upper ≠ "ABOUT" ∧ t.upper ≠ "PWUPDATE" ∧ t.upper ≠ "RETRIEVEPW" ∧
      t.upper ≠ "RETRIVEPW" ∧ t.upper ≠ "CHANGELOGIN" := by
  unfold ofLine at beyond ⊢
  split at beyond
  · cases beyond
  next noHelp =>
  split at beyond
  · cases beyond
  next noAbout =>
  split at beyond
  · cases beyond
  next noUpdate =>
  split at beyond
  · cases beyond
  next noListing =>
  split at beyond
  · cases beyond
  next noChange =>
  rw [if_neg noHelp, if_neg noAbout, if_neg noUpdate, if_neg noListing, if_neg noChange]
  rw [not_or] at noListing
  cases kind with
  | serial => cases beyond
  | ble => exact ⟨rfl, rfl, noHelp, noAbout, noUpdate, noListing.1, noListing.2, noChange⟩

/-- A line is relayed only over a wireless link, where relaying is switched on and the line is none
of the commands. -/
theorem of_ofLine_eq_relay {kind : LinkKind} {relaying : Bool} {t : Text}
    (relayed : ofLine kind relaying t = .relay) :
    kind = .ble ∧ relaying = true ∧ Unrecognised t := by
  obtain ⟨wireless, read, noHelp, noAbout, noUpdate, noListing, noListing', noChange⟩ :=
    of_ofLine_of_not_common (congrArg isCommon relayed)
  rw [relayed] at read
  cases found : ofWireless? t with
  | some command =>
    rw [found] at read
    have same : command = .relay := read
    subst same
    exact absurd found (ofWireless?_ne_relay t)
  | none =>
    rw [found] at read
    obtain ⟨noStop, noStop', noList, noFile⟩ := of_ofWireless?_eq_none found
    refine ⟨wireless, ?_, ?_, ?_⟩
    · cases relaying with
      | true => rfl
      | false => cases read
    · have noWord (command : FileCommand) : t.upper ≠ command.word := (noFile command).1
      simp only [words, List.mem_cons, List.not_mem_nil, or_false, not_or]
      exact ⟨noHelp, noAbout, noUpdate, noListing, noListing', noChange, noStop, noStop', noList,
        noWord .record, noWord .play, noWord .view, noWord .save⟩
    · have noCall (command : FileCommand) (argument : Text) :
          ¬Calls (command.word ++ ":") t argument := fun calls =>
        nomatch (argument?_eq_some_iff.mpr calls).symm.trans (noFile command).2
      simp only [List.mem_cons, List.not_mem_nil, or_false]
      rintro word (rfl | rfl | rfl | rfl)
      · exact noCall .record
      · exact noCall .play
      · exact noCall .view
      · exact noCall .save

/-- A file is played only over a wireless link, and is what the line calls for. -/
theorem of_ofLine_eq_play {kind : LinkKind} {relaying : Bool} {t name : Text}
    (played : ofLine kind relaying t = .file .play name) :
    kind = .ble ∧ Calls "PLAY:" t name := by
  obtain ⟨wireless, read, _⟩ := of_ofLine_of_not_common (congrArg isCommon played)
  rw [played] at read
  have found : ofWireless? t = some (.file .play name) := by
    cases found : ofWireless? t with
    | some command =>
      rw [found] at read
      exact congrArg some read
    | none =>
      rw [found] at read
      cases relaying <;> cases read
  exact ⟨wireless, argument?_eq_some_iff.mp (argument?_of_ofWireless? found)⟩

end Command

namespace LineRequest

/-- A live action begins with one of the words of live actions. -/
theorem word_of_live? {t : Text} {request : LineRequest} (live : live? t = some request) :
    ∃ word ∈ liveWords, word <+: t := by
  unfold live? at live
  split at live
  · next found => exact ⟨_, .head _, Text.prefix_of_after? found⟩
  split at live
  · next found => exact ⟨_, .tail _ (.head _), Text.prefix_of_after? found⟩
  split at live
  · next found => exact ⟨_, .tail _ (.tail _ (.head _)), Text.prefix_of_after? found⟩
  split at live
  · next found => exact ⟨_, .tail _ (.tail _ (.tail _ (.head _))), Text.prefix_of_after? found⟩
  · cases live

/-- What begins with such a word is a live action. -/
theorem isSome_live?_of_word {t : Text} (lead : ∃ word ∈ liveWords, word <+: t) :
    (live? t).isSome = true := by
  obtain ⟨word, listed, rest, rfl⟩ := lead
  simp only [liveWords, List.mem_cons, List.not_mem_nil, or_false] at listed
  obtain rfl | rfl | rfl | rfl := listed <;> rfl

/-- A line is a live action only over a wireless link that collects no macro. -/
theorem of_ofLine_eq_act {kind : LinkKind} {relaying : Bool} {state : SessionState} {line : Line}
    {directive : Directive} {done : Text}
    (acts : ofLine kind relaying state line = .act directive done) :
    kind = .ble ∧ (∀ file content, state ≠ .collecting file content) ∧
      ∃ word ∈ liveWords, word <+: line.text.trim := by
  unfold ofLine at acts
  split at acts
  · split at acts <;> cases acts
  next idling =>
  split at acts
  · cases acts
  unfold ofTrimmed at acts
  cases kind with
  | serial =>
    dsimp only at acts
    split at acts <;> cases acts
  | ble =>
    refine ⟨rfl, fun file content collecting => idling file content collecting, ?_⟩
    cases live : live? line.text.trim with
    | some request => exact word_of_live? live
    | none =>
      rw [live] at acts
      dsimp only [Option.getD_none] at acts
      split at acts <;> cases acts

/-- A command is obeyed in an idle session only. -/
theorem of_ofLine_eq_obey {kind : LinkKind} {relaying : Bool} {state : SessionState} {line : Line}
    {command : Command} (obeys : ofLine kind relaying state line = .obey command) :
    state = .idle ∧ Command.ofLine kind relaying line.text.trim = command := by
  have reading := reading_ofLine kind relaying state line
  rw [obeys] at reading
  cases reading with
  | obeys significant => exact ⟨rfl, rfl⟩

end LineRequest

namespace Handling

/-- The device stays as it is. -/
def Still (handling : Handling δ κ φ ρ α) : Prop :=
  ∀ exchange, (handling exchange).2.core.device = exchange.core.device

namespace Still

/-- The device may stay as it is where nothing is done and where things are done in turn. -/
theorem course :
    Core.Course fun before after : Core δ κ φ => after.device = before.device where
  refl _ := rfl
  trans earlier later := later.trans earlier

variable [ReplyPort ρ]

/-- A reply is still. -/
theorem reply (t : Text) : Still (reply t : Handling δ κ φ ρ Unit) := fun _ => rfl

/-- Every answer to a question is still. -/
theorem answer [KeyValueStore κ] (question : Question) (t : Text) :
    Still (answer question t : Handling δ κ φ ρ Unit) :=
  Within.answer course (fun _ _ _ _ => rfl) question t

variable [FileStore φ]

/-- Saving the macro that was collected is still. -/
theorem finish (file content : Text) :
    Still (do become .idle; saveMacro file content : Handling δ κ φ ρ Unit) :=
  Within.bind course (.become course _) fun _ => .saveMacro course (fun _ _ _ => rfl) file content

variable [KeyValueStore κ] [Device δ]

/-- A command is still, unless it plays a file or relays the line. -/
theorem obey (kind : LinkKind) (line : Line) {command : Command} (noRelay : command ≠ .relay)
    (noPlay : ∀ name, command ≠ .file .play name) :
    Still (obey kind line command : Handling δ κ φ ρ Unit) := by
  refine Within.obey course kind line command ?_ fun _ _ _ _ => rfl
  rintro (relayed | ⟨name, played⟩)
  · exact absurd relayed noRelay
  · exact absurd played (noPlay name)

end Still

/-- Where a command to play a file does something to the device, the file is there. -/
theorem holds_of_play [Device δ] [KeyValueStore κ] [FileStore φ] [ReplyPort ρ] {kind : LinkKind}
    {line : Line} {name : Text} {exchange : Exchange δ κ φ ρ}
    (touched : (obey kind line (.file .play name) exchange).2.core.device ≠
      exchange.core.device) :
    ∃ file files, FileName.ofUser? name = some file ∧ exchange.core.files = some files ∧
      FileStore.holds file files = true := by
  unfold obey at touched
  dsimp only at touched
  cases named : FileName.ofUser? name with
  | none =>
    rw [named] at touched
    exact absurd (Still.reply _ exchange) touched
  | some file =>
    rw [named] at touched
    unfold withFiles at touched
    dsimp only at touched
    rw [bind_eq] at touched
    cases there : exchange.core.files with
    | none =>
      simp only [look, attempt, there] at touched
      exact absurd (Still.reply _ exchange) touched
    | some files =>
      simp only [look, attempt, there] at touched
      refine ⟨file, files, rfl, rfl, ?_⟩
      apply Decidable.byContradiction
      intro absent
      simp only [useFile, if_neg absent] at touched
      exact absurd (Still.reply _ exchange) touched

end Handling

/-- A text calls for playing a file that is there. -/
def Core.Plays [FileStore φ] (core : Core δ κ φ) (t : Text) : Prop :=
  ∃ name file files, Command.Calls "PLAY:" t name ∧ FileName.ofUser? name = some file ∧
    core.files = some files ∧ FileStore.holds file files = true

namespace Session

/-- Where the handling of a line may do something to the device. -/
structure MayTouch [FileStore φ] (session : Session) (line : Line) (core : Core δ κ φ) : Prop where
  /-- The link is a wireless one. -/
  wireless : session.kind = .ble
  /-- No macro is being collected. -/
  collectsNothing : ∀ file content, session.state ≠ .collecting file content
  /-- The line is a live action or, in an idle session, plays a file or is relayed. -/
  asked : (∃ word ∈ LineRequest.liveWords, word <+: line.text.trim) ∨
    session.state = .idle ∧ (core.Plays line.text.trim ∨
      core.settings.dualRelay = true ∧ Command.Unrecognised line.text.trim)

/-- No macro is collected and no live action carried out where a dialog takes its answer. -/
theorem not_mayTouch_of_answer [FileStore φ] {session : Session} {line : Line} {core : Core δ κ φ}
    {question : Question} (asking : session.state = .asking question)
    (significant : line.isAside session.kind = false) : ¬session.MayTouch line core := by
  rintro ⟨wireless, _, live | ⟨idle, _⟩⟩
  · have aside : line.isAside session.kind = true := by
      rw [Line.isAside, wireless, LineRequest.isSome_live?_of_word live]
      exact Bool.or_true _
    rw [aside] at significant
    cases significant
  · rw [asking] at idle
    cases idle

variable [Device δ] [KeyValueStore κ] [FileStore φ] [ReplyPort ρ]

/-- Elsewhere, handling a line leaves the device as it is. -/
theorem mayTouch_of_handled {session : Session} {line : Line} {core : Core δ κ φ} {port : ρ}
    (touched : (session.handled line core port).2.core.device ≠ core.device) :
    session.MayTouch line core := by
  obtain ⟨kind, state⟩ := session
  unfold handled at touched
  dsimp only at touched
  cases request : LineRequest.ofLine kind core.settings.dualRelay state line with
  | collect file content =>
    rw [request] at touched
    exact absurd rfl touched
  | finish file content =>
    rw [request] at touched
    exact absurd (Handling.Still.finish file content ⟨state, core, port⟩) touched
  | nothing =>
    rw [request] at touched
    exact absurd rfl touched
  | answer question t =>
    rw [request] at touched
    exact absurd (Handling.Still.answer question t ⟨state, core, port⟩) touched
  | act directive done =>
    obtain ⟨wireless, collectsNothing, live⟩ := LineRequest.of_ofLine_eq_act request
    exact ⟨wireless, collectsNothing, .inl live⟩
  | obey command =>
    obtain ⟨idle, asks⟩ := LineRequest.of_ofLine_eq_obey request
    have collectsNothing (file content : Text) : state ≠ .collecting file content := by
      rw [idle]
      exact nofun
    rw [request] at touched
    change (Handling.obey kind line command ⟨.idle, core, port⟩).2.core.device ≠
      core.device at touched
    by_cases relayed : command = .relay
    · subst relayed
      obtain ⟨wireless, relaying, unrecognised⟩ := Command.of_ofLine_eq_relay asks
      exact ⟨wireless, collectsNothing, .inr ⟨idle, .inr ⟨relaying, unrecognised⟩⟩⟩
    by_cases played : ∃ name, command = .file .play name
    · obtain ⟨name, rfl⟩ := played
      obtain ⟨wireless, calls⟩ := Command.of_ofLine_eq_play asks
      obtain ⟨file, files, named, there, held⟩ := Handling.holds_of_play touched
      exact ⟨wireless, collectsNothing,
        .inr ⟨idle, .inl ⟨name, file, files, calls, named, there, held⟩⟩⟩
    · exact absurd (Handling.Still.obey kind line relayed (fun name same => played ⟨name, same⟩)
        ⟨.idle, core, port⟩) touched

/-- A line that is served leaves the device as it is or, where the line failed, lets go of
everything on it, unless its handling may touch the device. -/
theorem device_serve {session : Session} {line : Line} {core : Core δ κ φ}
    (untouching : ¬session.MayTouch line core) (port : ρ) :
    (session.serve line core port).2.1.device = core.device ∨
      (session.serve line core port).2.1.device = (Device.perform .releaseAll core.device).2 := by
  have same : (session.handled line core port).2.core.device = core.device :=
    Classical.byContradiction fun touched => untouching (mayTouch_of_handled touched)
  unfold serve settle
  split
  · exact .inl same
  · exact .inl same
  · rw [same]
    exact .inr rfl

/-- A session keeps its kind. -/
theorem kind_serve (session : Session) (line : Line) (core : Core δ κ φ) (port : ρ) :
    (session.serve line core port).1.kind = session.kind := by
  unfold serve settle
  split <;> rfl

end Session

end Keyfob
