import Keyfob.Hid.Recording
import Keyfob.Proofs.Files.Dependable
import Keyfob.Proofs.Session.Secrecy
import Keyfob.Proofs.Session.Touching
import Keyfob.Proofs.Text.Lines
import Keyfob.Proofs.Text.Utf8

/-!
# Macros that are sent line by line

After the command to save a macro a wireless session keeps every line as it comes, whatever it
would mean otherwise, up to a blank line. Nothing but the session changes meanwhile
(`Session.handleAll_collecting`). Then the file holds the lines, each with a line feed, and the
command to show the file replies them one by one (`Session.macro_saved`).
-/
namespace Keyfob

/-- Send replies in order, up to the first that cannot be sent. -/
def ReplyPort.sendAll {ρ : Type} [ReplyPort ρ] : List Text → ρ → Except LinkError Unit × ρ
  | [], port => (.ok (), port)
  | t :: ts, port =>
    match ReplyPort.reply t port with
    | (.ok (), port) => sendAll ts port
    | (.error e, port) => (.error e, port)

/-- One reply is sent as it is. -/
theorem ReplyPort.sendAll_singleton {ρ : Type} [ReplyPort ρ] (t : Text) (port : ρ) :
    ReplyPort.sendAll [t] port = ReplyPort.reply t port := by
  rw [ReplyPort.sendAll]
  cases ReplyPort.reply t port with
  | mk result after =>
    cases result with
    | ok _ => rfl
    | error e => rfl

/-- Only a colon is a colon in small letters. -/
theorem Text.eq_colon_of_toLower {c : Char} (low : c.toLower = ':') : c = ':' := by
  unfold Char.toLower at low
  split at low
  · next capital =>
    have code := congrArg (fun d : Char => d.val.toNat) low
    obtain ⟨least, most⟩ := capital
    rw [ge_iff_le, UInt32.le_iff_toNat_le] at least
    rw [UInt32.le_iff_toNat_le] at most
    simp only [Char.reduceVal, UInt32.reduceSub, UInt32.toNat_add, UInt32.reduceToNat]
      at code least most
    omega
  · exact low

/-- The first letter of a text, in small. -/
def Text.initial (t : Text) : Option Char := t.head?.map Char.toLower

/-- The word of each command about a file begins with a letter of its own. -/
theorem FileCommand.eq_of_initial {command sibling : FileCommand}
    (same : Text.initial command.word = Text.initial sibling.word) : command = sibling := by
  revert same
  cases command <;> cases sibling <;> decide

/-- None begins with the first letter of a live action. -/
theorem FileCommand.initial_ne_live (command : FileCommand) :
    ∀ word ∈ LineRequest.liveWords, Text.initial word ≠ Text.initial command.word := by
  cases command <;> decide

variable {δ κ φ ρ : Type}

namespace Command

/-- A call of a command about a file begins with the first letter of its word. -/
theorem Calls.initial {command : FileCommand} {t argument : Text}
    (calls : Calls (command.word ++ ":") t argument) :
    Text.initial t = Text.initial command.word := by
  obtain ⟨lead, rfl, same⟩ := calls
  have letters : lead.lower = (command.word ++ ":").lower := beq_iff_eq.mp same
  have first : Text.initial (command.word ++ ":") = Text.initial command.word := by
    cases command <;> rfl
  cases lead with
  | nil => cases command <;> cases letters
  | cons c lead =>
    have heads := congrArg List.head? letters
    rw [Text.lower, Text.lower, List.head?_map, List.head?_map] at heads
    exact heads.trans first

/-- A call has a colon in it. -/
theorem Calls.colon {word t argument : Text} (calls : Calls (word ++ ":") t argument) :
    ':' ∈ t.upper := by
  obtain ⟨lead, rfl, same⟩ := calls
  have letters : lead.lower = (word ++ ":").lower := beq_iff_eq.mp same
  have colon : ':' ∈ lead.lower := by
    rw [letters, Text.lower, List.map_append]
    exact List.mem_append_right _ List.mem_cons_self
  obtain ⟨c, listed, low⟩ := List.mem_map.mp colon
  obtain rfl := Text.eq_colon_of_toLower low
  exact List.mem_map.mpr ⟨':', List.mem_append_left _ listed, rfl⟩

/-- A line that calls for a command about a file gives the command with the name that was called
for, if any was. -/
theorem ofLine_of_calls {command : FileCommand} {t name : Text}
    (calls : Calls (command.word ++ ":") t name) (relaying : Bool) :
    ofLine .ble relaying t = if name.trim.isEmpty then .noFile else .file command name := by
  have colon := calls.colon
  have other {word : Text} (plain : ':' ∉ word) : t.upper ≠ word := fun same => plain (same ▸ colon)
  have hit : argument? command.word t = some name := argument?_eq_some_iff.mpr calls
  have miss (sibling : FileCommand) (differs : sibling ≠ command) :
      argument? sibling.word t = none := by
    cases found : argument? sibling.word t with
    | none => rfl
    | some argument =>
      have first := (argument?_eq_some_iff.mp found).initial
      exact absurd (FileCommand.eq_of_initial (first.symm.trans calls.initial)) differs
  have found : FileCommand.all.findSome? (fun command =>
      (argument? command.word t).map fun name => (command, name)) = some (command, name) := by
    unfold FileCommand.all
    cases command <;> simp [hit, miss]
  have read : ofWireless? t =
      if name.trim.isEmpty then some .noFile else some (.file command name) := by
    unfold ofWireless?
    rw [if_neg (not_or.mpr ⟨other (by decide), other (by decide)⟩), if_neg (other (by decide))]
    simp only [found]
  unfold ofLine
  rw [if_neg (other (by decide)), if_neg (other (by decide)), if_neg (other (by decide)),
    if_neg (not_or.mpr ⟨other (by decide), other (by decide)⟩), if_neg (other (by decide))]
  simp only [read]
  split
  · rfl
  · rfl

/-- A line that calls for a command about a file is no live action. -/
theorem live?_of_calls {command : FileCommand} {t name : Text}
    (calls : Calls (command.word ++ ":") t name) : LineRequest.live? t = none := by
  cases live : LineRequest.live? t with
  | none => rfl
  | some request =>
    obtain ⟨word, listed, rest, rfl⟩ := LineRequest.word_of_live? live
    have long : word ≠ [] :=
      (show ∀ word ∈ LineRequest.liveWords, word ≠ [] by decide) word listed
    have first := calls.initial
    rw [Text.initial, List.head?_append_of_ne_nil word long] at first
    exact absurd first (command.initial_ne_live word listed)

end Command

/-- A wireless session that waits for a command obeys one about a file. -/
theorem LineRequest.ofLine_of_calls {command : FileCommand} {line : Line} {name : Text}
    (calls : Command.Calls (command.word ++ ":") line.text.trim name) (relaying : Bool) :
    ofLine .ble relaying .idle line =
      .obey (if name.trim.isEmpty then .noFile else .file command name) := by
  have nonempty : line.text.trim.isEmpty = false := by
    rw [List.isEmpty_eq_false_iff]
    intro nothing
    rw [nothing] at calls
    have first := calls.initial
    cases command <;> cases first
  simp only [ofLine, nonempty, ofTrimmed, Command.live?_of_calls calls,
    Command.ofLine_of_calls calls]
  rfl

namespace Handling

/-- Replies are sent in order, and nothing else is done. -/
theorem replyAll_eq [ReplyPort ρ] (replies : List Text) (exchange : Exchange δ κ φ ρ) :
    replyAll replies exchange =
      ((ReplyPort.sendAll replies exchange.port).1.mapError (.error ∘ .link),
        { exchange with port := (ReplyPort.sendAll replies exchange.port).2 }) := by
  induction replies generalizing exchange with
  | nil => rfl
  | cons t replies ih =>
    rw [replyAll, bind_eq, ReplyPort.sendAll, reply]
    dsimp only
    cases ReplyPort.reply t exchange.port with
    | mk result port =>
      cases result with
      | ok _ => exact ih _
      | error e => rfl

/-- Replies and one more are the replies in order. -/
theorem replyAll_concat [ReplyPort ρ] (replies : List Text) (last : Text) :
    (do replyAll replies; reply last : Handling δ κ φ ρ Unit) = replyAll (replies ++ [last]) := by
  induction replies with
  | nil =>
    funext exchange
    rw [List.nil_append, replyAll, replyAll, bind_eq, bind_eq]
    dsimp only [pure, ExceptT.pure, ExceptT.mk, StateT.pure]
    cases reply last exchange with
    | mk result after =>
      cases result with
      | ok _ => rfl
      | error e => rfl
  | cons t replies ih =>
    funext exchange
    rw [List.cons_append, replyAll, replyAll, ← ih]
    simp only [bind_eq]
    cases reply t exchange with
    | mk result after =>
      cases result with
      | ok _ => rfl
      | error e => rfl

/-- The reply to the command to save a macro. -/
def readyReply : Text := "OK: Ready to receive macro. Send empty line to finish."

/-- To save a macro is to reply that lines can come, and to collect them. -/
theorem useFile_save [Device δ] [FileStore φ] [ReplyPort ρ] (file : Text) (files : φ) :
    (useFile .save file files : Handling δ κ φ ρ Unit) = (do
      reply readyReply
      become (.collecting file [])) :=
  rfl

end Handling

/-- What is collected of lines: their texts as they came, each with a line feed. -/
def Line.collected (lines : List Line) : Text := lines.flatMap fun line => line.text ++ ['\n']

/-- Such lines are read back, but for a carriage return at the end of each. -/
theorem Line.lines_collected {lines : List Line} (oneLine : ∀ line ∈ lines, '\n' ∉ line.text) :
    Text.lines (Line.collected lines) = lines.map (·.text.withoutReturn) := by
  have texts : ∀ t ∈ lines.map Line.text, '\n' ∉ t := List.forall_mem_map.mpr oneLine
  have split := Text.lines_flatMap_feed texts
  rwa [List.flatMap_map, List.map_map] at split

namespace Session

variable [Device δ] [KeyValueStore κ] [FileStore φ] [ReplyPort ρ]

/-- Handle lines in order. -/
def handleAll (session : Session) : List Line → Core δ κ φ → ρ → Session × Core δ κ φ × ρ
  | [], core, port => (session, core, port)
  | line :: lines, core, port =>
    let (_, session, core, port) := session.handle line core port
    session.handleAll lines core port

/-- While a macro is collected, a line that is not blank is kept, and that is all. -/
theorem handle_collecting {line : Line} (solid : line.text.trim ≠ []) (kind : LinkKind)
    (file content : Text) (core : Core δ κ φ) (port : ρ) :
    handle ⟨kind, .collecting file content⟩ line core port =
      (.ok (), ⟨kind, .collecting file (content ++ (line.text ++ ['\n']))⟩, core, port) := by
  have keeps : LineRequest.ofLine kind core.settings.dualRelay (.collecting file content) line =
      .collect file (content ++ (line.text ++ ['\n'])) := by
    rw [LineRequest.ofLine, if_neg (by rwa [List.isEmpty_iff]), List.append_assoc]
    rfl
  unfold handle
  dsimp only
  rw [keeps]
  rfl

/-- Any number of such lines is kept. -/
theorem handleAll_collecting {lines : List Line} (solid : ∀ line ∈ lines, line.text.trim ≠ [])
    (kind : LinkKind) (file content : Text) (core : Core δ κ φ) (port : ρ) :
    handleAll ⟨kind, .collecting file content⟩ lines core port =
      (⟨kind, .collecting file (content ++ Line.collected lines)⟩, core, port) := by
  induction lines generalizing content with
  | nil => rw [Line.collected, List.flatMap_nil, List.append_nil, handleAll]
  | cons line lines ih =>
    obtain ⟨first, later⟩ := List.forall_mem_cons.mp solid
    rw [handleAll, handle_collecting first]
    dsimp only
    rw [ih later, Line.collected, Line.collected, List.flatMap_cons, List.append_assoc]

/-- The reply to a macro that was saved. -/
def savedReply (file content : Text) : Text :=
  "OK: Macro saved to " ++ file ++ " (" ++ Text.ofNat content.utf8.length ++ " bytes)"

/-- A blank line ends the macro, which is written to the file. -/
theorem handle_blank {blank : Line} (ends : blank.text.trim = []) (kind : LinkKind)
    (file content : Text) {core : Core δ κ φ} {files : φ} (placed : core.files = some files)
    (written : (FileStore.write file content.utf8 files).1 = .ok ()) (port : ρ) :
    let replied := ReplyPort.sendAll [savedReply file content] port
    handle ⟨kind, .collecting file content⟩ blank core port =
      (replied.1.mapError (.error ∘ .link), ⟨kind, .idle⟩,
        { core with files := some (FileStore.write file content.utf8 files).2 }, replied.2) := by
  have asks : LineRequest.ofLine kind core.settings.dualRelay (.collecting file content) blank =
      .finish file content := by
    rw [LineRequest.ofLine, ends]
    rfl
  unfold handle
  dsimp only [ExceptT.run]
  rw [asks]
  unfold Handling.fulfil Handling.saveMacro Handling.withFiles
  dsimp only
  rw [Handling.bind_eq]
  simp only [Handling.become]
  rw [Handling.bind_eq]
  simp only [Handling.look, Handling.attempt, placed]
  rw [Handling.bind_eq]
  simp only [Handling.write, Handling.attempt, written]
  rw [ReplyPort.sendAll_singleton]
  rfl

/-- A line that calls for a command about a file is obeyed by a session that waits for one. -/
theorem handle_of_calls (command : FileCommand) {line : Line} {name : Text}
    (calls : Command.Calls (command.word ++ ":") line.text.trim name) (core : Core δ κ φ)
    (port : ρ) :
    let obeyed := Handling.obey .ble line
      (if name.trim.isEmpty then .noFile else .file command name) ⟨.idle, core, port⟩
    handle ⟨.ble, .idle⟩ line core port =
      (obeyed.1, ⟨.ble, obeyed.2.state⟩, obeyed.2.core, obeyed.2.port) := by
  unfold handle
  dsimp only [ExceptT.run]
  rw [LineRequest.ofLine_of_calls calls]
  unfold Handling.fulfil
  dsimp only
  rw [Handling.bind_eq]
  rfl

/-- Such a line uses the file that it names, where there is a place for files. -/
theorem handle_of_named (command : FileCommand) {line : Line} {name file : Text}
    (calls : Command.Calls (command.word ++ ":") line.text.trim name)
    (named : FileName.ofUser? name = some file) {core : Core δ κ φ} {files : φ}
    (placed : core.files = some files) (port : ρ) :
    let used := Handling.useFile command file files ⟨.idle, core, port⟩
    handle ⟨.ble, .idle⟩ line core port =
      (used.1, ⟨.ble, used.2.state⟩, used.2.core, used.2.port) := by
  have solid : name.trim.isEmpty = false := by
    rw [List.isEmpty_eq_false_iff]
    intro nothing
    rw [FileName.ofUser?, nothing] at named
    cases named
  have obeyed := handle_of_calls command calls core port
  rw [solid] at obeyed
  unfold Handling.obey Handling.withFiles at obeyed
  simp only [Bool.false_eq_true, if_false, named, Handling.bind_eq, Handling.look,
    Handling.attempt, placed] at obeyed
  exact obeyed

/-- A session that refuses such a line, for the lack of a name of a file or of a place for files,
waits for another. -/
theorem handle_of_refused (command : FileCommand) {line : Line} {name : Text}
    (calls : Command.Calls (command.word ++ ":") line.text.trim name) {core : Core δ κ φ}
    (refused : FileName.ofUser? name = none ∨ core.files = none) (port : ρ) :
    (handle ⟨.ble, .idle⟩ line core port).2.1.state = .idle := by
  have obeyed := handle_of_calls command calls core port
  cases blank : name.trim.isEmpty with
  | true =>
    rw [blank] at obeyed
    exact congrArg (·.2.1.state) obeyed
  | false =>
    rw [blank] at obeyed
    unfold Handling.obey Handling.withFiles at obeyed
    cases named : FileName.ofUser? name with
    | none =>
      simp only [Bool.false_eq_true, if_false, named] at obeyed
      exact congrArg (·.2.1.state) obeyed
    | some file =>
      have unplaced : core.files = none := refused.resolve_left (by rw [named]; nofun)
      simp only [Bool.false_eq_true, if_false, named, Handling.bind_eq, Handling.look,
        Handling.attempt, unplaced] at obeyed
      exact congrArg (·.2.1.state) obeyed

/-- The command to save a macro is accepted only with a name of a file and a place for it. Then
the session has replied that it is ready, and nothing else is done. -/
theorem opened_of_accepted {saving : Line} {name file : Text} {core : Core δ κ φ} {port : ρ}
    (calls : Command.Calls "SAVE_MACRO:" saving.text.trim name)
    (accepted : (handle ⟨.ble, .idle⟩ saving core port).2.1.state = .collecting file []) :
    FileName.ofUser? name = some file ∧ (∃ files, core.files = some files) ∧
      handle ⟨.ble, .idle⟩ saving core port =
        (.ok (), ⟨.ble, .collecting file []⟩, core,
          (ReplyPort.reply Handling.readyReply port).2) := by
  have taken : ¬(FileName.ofUser? name = none ∨ core.files = none) := by
    intro refused
    rw [handle_of_refused .save calls refused port] at accepted
    cases accepted
  obtain ⟨isNamed, isPlaced⟩ := not_or.mp taken
  obtain ⟨other, named⟩ := Option.ne_none_iff_exists'.mp isNamed
  obtain ⟨files, placed⟩ := Option.ne_none_iff_exists'.mp isPlaced
  have used := handle_of_named .save calls named placed port
  dsimp only at used
  rw [Handling.useFile_save, Handling.bind_eq] at used
  simp only [Handling.reply, Handling.become] at used
  rw [used] at accepted ⊢
  cases sent : ReplyPort.reply Handling.readyReply port with
  | mk result after =>
    rw [sent] at accepted
    cases result with
    | error e => cases accepted
    | ok _ =>
      cases accepted
      exact ⟨named, ⟨files, placed⟩, rfl⟩

/-- The command to show a file replies its lines, and changes nothing. -/
theorem handle_view {viewing : Line} {name file : Text} {bytes : List UInt8}
    (calls : Command.Calls "VIEW:" viewing.text.trim name)
    (named : FileName.ofUser? name = some file) {core : Core δ κ φ} {files : φ}
    (placed : core.files = some files) (readable : FileStore.read file files = .ok bytes)
    (port : ρ) :
    let replied :=
      ReplyPort.sendAll (Text.lines (Text.decode bytes) ++ ["OK: End of file".toList]) port
    handle ⟨.ble, .idle⟩ viewing core port =
      (replied.1.mapError (.error ∘ .link), ⟨.ble, .idle⟩, core, replied.2) := by
  have used := handle_of_named .view calls named placed port
  dsimp only at used ⊢
  rw [used]
  unfold Handling.useFile
  simp only [readable]
  rw [Handling.replyAll_concat, Handling.replyAll_eq]

/-- Lines that follow an accepted command to save a macro, up to a blank one, only change what the
session has collected. At the blank line the file holds each of them with a line feed, the reply
states its length, and the session waits for commands again. Shown, the file is the lines, but for
a carriage return at the end of each. -/
theorem macro_saved {fit : φ → Prop} {file : Text}
    (dependable : FileStore.Dependable file fit) (saving : Line) (lines : List Line)
    (blank viewing : Line) (name viewed : Text) (core : Core δ κ φ) (port : ρ)
    (calls : Command.Calls "SAVE_MACRO:" saving.text.trim name)
    (accepted : (handle ⟨.ble, .idle⟩ saving core port).2.1.state = .collecting file [])
    (working : ∀ files, core.files = some files → fit files)
    (solid : ∀ line ∈ lines, line.text.trim ≠ []) (oneLine : ∀ line ∈ lines, '\n' ∉ line.text)
    (ends : blank.text.trim = []) (views : Command.Calls "VIEW:" viewing.text.trim viewed)
    (sameName : viewed.trim = name.trim) :
    let content := Line.collected lines
    let opened := (handle ⟨.ble, .idle⟩ saving core port).2
    let collected := handleAll opened.1 lines opened.2.1 opened.2.2
    let saved := handle collected.1 blank collected.2.1 collected.2.2
    let stated := ReplyPort.sendAll [savedReply file content] opened.2.2
    opened = (⟨.ble, .collecting file []⟩, core,
        (ReplyPort.reply Handling.readyReply port).2) ∧
      (∀ front, front <+: lines → handleAll opened.1 front opened.2.1 opened.2.2 =
        (⟨.ble, .collecting file (Line.collected front)⟩, core, opened.2.2)) ∧
      (∃ files, saved.2.2.1 = { core with files := some files } ∧
        FileStore.read file files = .ok content.utf8) ∧
      saved.2.1 = ⟨.ble, .idle⟩ ∧ saved.1 = stated.1.mapError (.error ∘ .link) ∧
      saved.2.2.2 = stated.2 ∧
      ∀ later : ρ,
        let shown := lines.map (·.text.withoutReturn) ++ ["OK: End of file".toList]
        let replied := ReplyPort.sendAll shown later
        handle saved.2.1 viewing saved.2.2.1 later =
          (replied.1.mapError (.error ∘ .link), ⟨.ble, .idle⟩, saved.2.2.1, replied.2) := by
  obtain ⟨named, ⟨files, placed⟩, opening⟩ := opened_of_accepted calls accepted
  obtain ⟨written, -, readable⟩ :=
    dependable.write (Line.collected lines).utf8 files (working files placed)
  have closing := handle_blank ends .ble file (Line.collected lines) placed written
    (ReplyPort.reply Handling.readyReply port).2
  dsimp only at closing ⊢
  rw [opening]
  dsimp only
  rw [handleAll_collecting solid, List.nil_append]
  dsimp only
  rw [closing]
  refine ⟨rfl, ?_, ⟨_, rfl, readable⟩, rfl, rfl, rfl, ?_⟩
  · intro front isFront
    rw [handleAll_collecting fun line listed => solid line (isFront.subset listed),
      List.nil_append]
  · intro later
    have namedAgain : FileName.ofUser? viewed = some file := by
      rw [← named, FileName.ofUser?, FileName.ofUser?, sameName]
    rw [handle_view views namedAgain rfl readable, Text.decode_utf8, Line.lines_collected oneLine]

/-- Lines that are commands, a code, a live action and a text with a carriage return at its end. -/
def commandLines : List Line :=
  [{ text := "PWUPDATE" }, { text := "1122" }, { text := "TYPE:x", crlf := true },
    { text := "é\r" }]

/-- A macro of such lines is saved and shown. -/
theorem macro_saved_commandLines :
    let opened :=
      (handle ⟨.ble, .idle⟩ { text := "save_macro: m" } Station.plainCore ({} : ReplyLog)).2
    let collected := handleAll opened.1 commandLines opened.2.1 opened.2.2
    let saved := handle collected.1 { text := " " } collected.2.1 collected.2.2
    saved.2.2.2.replies = ["OK: Ready to receive macro. Send empty line to finish.".toList,
        "OK: Macro saved to m.txt (25 bytes)".toList] ∧
      (handle saved.2.1 { text := "VIEW:m" } saved.2.2.1 ({} : ReplyLog)).2.2.2.replies =
        ["PWUPDATE".toList, "1122".toList, "TYPE:x".toList, "é".toList,
          "OK: End of file".toList] := by
  have facts := macro_saved (MemoryFiles.dependable "m.txt") { text := "save_macro: m" }
    commandLines { text := " " } { text := "VIEW:m" } " m" "m" Station.plainCore ({} : ReplyLog)
    ⟨"save_macro:", by decide, by decide⟩ (by decide) (by rintro _ ⟨⟩; rfl) (by decide) (by decide)
    (by decide) ⟨"VIEW:", by decide, by decide⟩ (by decide)
  obtain ⟨opening, -, -, -, -, sent, shows⟩ := facts
  dsimp only at opening sent shows ⊢
  rw [sent, shows, opening]
  exact ⟨by decide +kernel, by decide +kernel⟩

end Session

end Keyfob
