import Keyfob.Proofs.Session.Collecting
import Keyfob.Proofs.Session.Secrecy
import Keyfob.Proofs.Session.Taping

/-!
# What a recording holds

While a recording runs, the lines of both links are served in any order, appending may fail at any
time, and the clock goes on. The file of the recording then holds one line for each live action that
was carried out and appended (`Station.noted`), and before it pauses that make up the time since the
one before it (`Recorder.Transcript`). The time of an action that could not be appended goes to the
next one (`Station.transcript_of_run`).
-/
namespace Keyfob

variable {δ κ φ ρ : Type}

namespace Recorder

/-- How long some pauses last one after another. -/
def waited (pauses : List UInt32) : Nat := pauses.foldr (fun ms later => ms.toNat + later) 0

/-- A text is what a recording holds of some actions from a time on: for each the pauses since the
one before, none of them empty or too long, and then the line of its directive. -/
inductive Transcript : Instant → List Noted → Text → Prop where
  /-- Of no action it holds nothing. -/
  | nil {since : Instant} : Transcript since [] []
  /-- It holds the first action and then the others, from the time of the first on. -/
  | cons {since : Instant} {noted : Noted} {rest : List Noted} {later : Text}
    (pauses : List UInt32) (bounded : ∀ ms ∈ pauses, 1 ≤ ms.toNat ∧ ms.toNat ≤ 5000)
    (total : since.toNat + waited pauses = noted.time.toNat)
    (following : Transcript noted.time rest later) :
    Transcript since (noted :: rest)
      ((pauses.flatMap fun ms => line (.delay ms)) ++ line noted.directive ++ later)

/-- The pauses that make up a time. -/
def pauses (time : Nat) : List UInt32 :=
  List.replicate (time / longestDelay) (UInt32.ofNat longestDelay) ++
    if time % longestDelay = 0 then [] else [UInt32.ofNat (time % longestDelay)]

/-- They are what the delays wait that make up the time. -/
theorem delays_eq (time : Nat) : delays time = (pauses time).map .delay := by
  unfold delays pauses
  rw [List.map_append, List.map_replicate]
  split
  · rfl
  · rfl

/-- None of them is empty or too long. -/
theorem bounded_of_mem_pauses {time : Nat} {ms : UInt32} (listed : ms ∈ pauses time) :
    1 ≤ ms.toNat ∧ ms.toNat ≤ 5000 := by
  unfold pauses at listed
  cases List.mem_append.mp listed with
  | inl whole =>
    rw [List.eq_of_mem_replicate whole]
    decide
  | inr rest =>
    split at rest
    · cases rest
    · next some =>
      rw [List.mem_singleton.mp rest]
      have short : time % longestDelay < 5000 := Nat.mod_lt time (by decide)
      rw [UInt32.toNat_ofNat_of_lt' (Nat.lt_trans short (by decide))]
      exact ⟨Nat.pos_of_ne_zero some, Nat.le_of_lt short⟩

/-- Pauses behind others last as long again. -/
theorem waited_append (pauses later : List UInt32) :
    waited (pauses ++ later) = waited pauses + waited later := by
  induction pauses with
  | nil => exact (Nat.zero_add _).symm
  | cons ms pauses ih =>
    change ms.toNat + waited (pauses ++ later) = ms.toNat + waited pauses + waited later
    rw [ih, Nat.add_assoc]

/-- A pause that is made many times over lasts as many times as long. -/
theorem waited_replicate (count : Nat) (ms : UInt32) :
    waited (List.replicate count ms) = count * ms.toNat := by
  induction count with
  | zero => exact (Nat.zero_mul _).symm
  | succ count ih =>
    change ms.toNat + waited (List.replicate count ms) = (count + 1) * ms.toNat
    rw [ih, Nat.succ_mul, Nat.add_comm]

/-- Together they are the time. -/
theorem waited_pauses (time : Nat) : waited (pauses time) = time := by
  have whole : (UInt32.ofNat longestDelay).toNat = longestDelay := by decide
  have short : time % longestDelay < 5000 := Nat.mod_lt time (by decide)
  have small : (UInt32.ofNat (time % longestDelay)).toNat = time % longestDelay :=
    UInt32.toNat_ofNat_of_lt' (Nat.lt_trans short (by decide))
  have rest : waited (if time % longestDelay = 0 then [] else
      [UInt32.ofNat (time % longestDelay)]) = time % longestDelay := by
    split
    · next none => exact none.symm
    · exact small
  unfold pauses
  rw [waited_append, waited_replicate, whole, rest]
  exact Nat.div_add_mod' time longestDelay

/-- What is appended for an action is the front of a transcript. -/
theorem Transcript.cons_entry {since : Instant} {noted : Noted} {rest : List Noted} {later : Text}
    (ordered : since ≤ noted.time) (following : Transcript noted.time rest later) :
    Transcript since (noted :: rest)
      (entry (since.elapsed noted.time) noted.directive ++ later) := by
  have written : entry (since.elapsed noted.time) noted.directive =
      ((pauses (since.elapsed noted.time)).flatMap fun ms => line (.delay ms)) ++
        line noted.directive := by
    unfold entry
    rw [delays_eq, List.flatMap_append, List.flatMap_map, List.flatMap_singleton]
  rw [written]
  refine .cons _ (fun ms => bounded_of_mem_pauses) ?_ following
  rw [waited_pauses]
  exact Nat.add_sub_cancel' ordered

end Recorder

namespace Station

variable [Device δ] [KeyValueStore κ] [FileStore φ] [ReplyPort ρ]

/-- What a line asks for. -/
def request (station : Station δ κ φ ρ) (kind : LinkKind) (line : Line) : LineRequest :=
  LineRequest.ofLine kind station.core.settings.dualRelay (station.states kind) line

/-- The live actions that are added to the recording, in order. -/
def noted (station : Station δ κ φ ρ) : List (Occurrence δ κ φ ρ) → List Noted
  | [] => []
  | .line kind line :: rest =>
    ((station.request kind line).noted? station.core).toList ++ noted (station.serve kind line) rest
  | .outside core ports :: rest => noted { station with core, ports } rest

/-- A recording into a file goes on, whatever else happens: no line stops it or makes the file anew,
and between lines neither the recorder nor the file is changed nor the clock turned back. -/
def GoesOn (held? : φ → Option (List UInt8)) (file : Text) (station : Station δ κ φ ρ) :
    List (Occurrence δ κ φ ρ) → Prop
  | [] => True
  | .line kind line :: rest =>
    (station.request kind line).stopsRecording station.core = false ∧
      (station.request kind line).overwrites file station.core = false ∧
      GoesOn held? file (station.serve kind line) rest
  | .outside core ports :: rest =>
    station.core.Spares held? core ∧ GoesOn held? file { station with core, ports } rest

instance GoesOn.decidable (held? : φ → Option (List UInt8)) (file : Text) :
    (station : Station δ κ φ ρ) → (occurrences : List (Occurrence δ κ φ ρ)) →
      Decidable (station.GoesOn held? file occurrences)
  | _, [] => inferInstanceAs (Decidable True)
  | station, .line kind line :: rest =>
    have := decidable held? file (station.serve kind line) rest
    inferInstanceAs (Decidable (_ ∧ _ ∧ _))
  | station, .outside core ports :: rest =>
    have := decidable held? file { station with core, ports } rest
    inferInstanceAs (Decidable (_ ∧ _))

variable {held? : φ → Option (List UInt8)} {file : Text} {started last : Instant}
  {held : List UInt8}

/-- Along a run the file grows by what is noted, and the recording goes on. -/
theorem tapes_run (honest : FileStore.Honest file held?) {station : Station δ κ φ ρ}
    (tapes : station.core.Tapes held? file started last held)
    {occurrences : List (Occurrence δ κ φ ρ)} (goesOn : station.GoesOn held? file occurrences) :
    ∃ text final, (station.run occurrences).core.Tapes held? file started final
        (held ++ text.utf8) ∧
      Recorder.Transcript last (station.noted occurrences) text := by
  induction occurrences generalizing station last held with
  | nil =>
    have nothing : held ++ Text.utf8 [] = held := List.append_nil held
    exact ⟨[], last, nothing.symm ▸ tapes, .nil⟩
  | cons occurrence rest ih =>
    cases occurrence with
    | outside core ports => exact ih (tapes.spare goesOn.1) goesOn.2
    | line kind line =>
      obtain ⟨still, apart, later⟩ := goesOn
      have served := Handling.tapes_fulfil honest kind line
        ⟨station.states kind, station.core, station.ports kind⟩ tapes still apart
      have settled (last : Instant) (held : List UInt8) :
          (Handling.fulfil kind line (station.request kind line)
            ⟨station.states kind, station.core, station.ports kind⟩).2.core.Tapes held? file started
              last held → (station.serve kind line).core.Tapes held? file started last held :=
        fun tapes => tapes.spare Session.spares_settle
      dsimp only at served
      unfold noted
      -- Only what was added moves on the time from which the next pauses are counted.
      cases added : (station.request kind line).noted? station.core with
      | none =>
        rw [added] at served
        exact ih (settled last held served) later
      | some noted =>
        rw [added] at served
        obtain ⟨text, final, grown, following⟩ := ih (settled _ _ served.2) later
        refine ⟨Recorder.entry (last.elapsed noted.time) noted.directive ++ text, final, ?_,
          .cons_entry served.1 following⟩
        rw [Text.utf8_append, ← List.append_assoc]
        exact grown

/-- The command to record into a file, after which a recording runs, has begun it in that file. -/
theorem tapes_serve_record (honest : FileStore.Honest file held?) {station : Station δ κ φ ρ}
    {starting : Line} {name : Text} (waiting : station.states .ble = .idle)
    (calls : Command.Calls "RECORD:" starting.text.trim name)
    (named : FileName.ofUser? name = some file) (placed : station.core.files.isSome = true)
    (runs : (station.serve .ble starting).core.recorder.running ≠ none) :
    (station.serve .ble starting).core.Tapes held? file station.core.now station.core.now [] := by
  obtain ⟨files, there⟩ := Option.isSome_iff_exists.mp placed
  have used : ((station.session .ble).handled starting station.core (station.ports .ble)).2.core =
      (Handling.useFile .record file files ⟨.idle, station.core, station.ports .ble⟩).2.core := by
    have handled := Session.handle_of_named .record calls named there (station.ports .ble)
    unfold session
    rw [waiting]
    exact congrArg (·.2.2.1) handled
  have settled : ((station.session .ble).handled starting station.core
      (station.ports .ble)).2.core.Spares held? (station.serve .ble starting).core :=
    Session.spares_settle
  rw [used] at settled
  rw [settled.recorder] at runs
  exact (Handling.tapes_record honest runs).spare settled

/-- After the command to record into a file, after which a recording runs, the recording goes on
through any lines of both links that neither stop it nor make the file anew, whatever fails. The
file then holds the lines of the live actions that were carried out and appended, in order, and
before each of them the pauses that make up the time since the one before. It holds them still
after any command that stops the recording, and is not one to record into the same file. -/
theorem transcript_of_run (honest : FileStore.Honest file held?) (station : Station δ κ φ ρ)
    (starting : Line) {name : Text} (waiting : station.states .ble = .idle)
    (calls : Command.Calls "RECORD:" starting.text.trim name)
    (named : FileName.ofUser? name = some file) (placed : station.core.files.isSome = true)
    (runs : (station.serve .ble starting).core.recorder.running ≠ none)
    (occurrences : List (Occurrence δ κ φ ρ))
    (goesOn : (station.serve .ble starting).GoesOn held? file occurrences) :
    let begun := station.serve .ble starting
    let ended := begun.run occurrences
    ∃ files text last, ended.core.files = some files ∧ held? files = some text.utf8 ∧
      (∀ bytes, FileStore.read file files = .ok bytes → bytes = text.utf8) ∧
      Recorder.Transcript station.core.now (begun.noted occurrences) text ∧
      ended.core.recorder.running = some ⟨file, station.core.now, last⟩ ∧
      ∀ kind line, (ended.request kind line).stopsRecording ended.core = true →
        (ended.request kind line).overwrites file ended.core = false →
          (ended.serve kind line).core.files.map held? = some (some text.utf8) := by
  intro begun ended
  have tapes := tapes_serve_record honest waiting calls named placed runs
  obtain ⟨text, last, grown, transcript⟩ := tapes_run honest tapes goesOn
  obtain ⟨files, there, holds⟩ := Option.map_eq_some_iff.mp grown.files
  refine ⟨files, text, last, there, holds, fun bytes read => ?_, transcript, grown.running,
    fun kind line stops apart => ?_⟩
  · exact Option.some.inj ((honest.read bytes files read).symm.trans holds)
  · have kept := Handling.files_fulfil_of_stops honest kind line
      ⟨ended.states kind, ended.core, ended.ports kind⟩ stops apart
    have settled : ((ended.session kind).handled line ended.core (ended.ports kind)).2.core.Spares
        held? (ended.serve kind line).core := Session.spares_settle
    exact (settled.files.trans kept).trans grown.files

/-- The clock goes on to a time, and appending fails or works from then on. -/
def later (station : Station Recording MemoryStore MemoryFiles ReplyLog) (time : Instant)
    (fails : Bool) : Occurrence Recording MemoryStore MemoryFiles ReplyLog :=
  .outside
    { station.core with
      now := time
      files := station.core.files.map fun files => { files with faults := { append := fails } } }
    station.ports

/-- Both links of a device some time after it was started. -/
def restedStation : Station Recording MemoryStore MemoryFiles ReplyLog :=
  { core := Session.restedCore, ports := fun _ => {} }

/-- While a recording runs, a text that is typed after a while and cannot be appended, and a little
later another one that can, a command on the other link, and a tap of Enter at once. -/
def halfRecorded : List (Occurrence Recording MemoryStore MemoryFiles ReplyLog) :=
  let begun := restedStation.serve .ble { text := "RECORD:m" }
  let first := [begun.later 13000 true, .line .ble { text := "TYPE:x" }]
  first ++ [(begun.run first).later 13250 false, .line .ble { text := "TYPE:y" },
    .line .serial { text := "HELP" }, .line .ble { text := "KEY: enter" }]

/-- The time of the first text goes to the second one. -/
theorem transcript_halfRecorded :
    let begun := restedStation.serve .ble { text := "RECORD:m" }
    let noted : List Noted := [⟨13250, .text "y"⟩, ⟨13250, .key "enter"⟩]
    begun.noted halfRecorded = noted ∧ ∃ text : Text,
      (begun.run halfRecorded).core.files.map (MemoryFiles.held? "m.txt") =
          some (some text.utf8) ∧
        Recorder.Transcript 1000 noted text := by
  dsimp only
  have added : (restedStation.serve .ble { text := "RECORD:m" }).noted halfRecorded =
      [⟨13250, .text "y"⟩, ⟨13250, .key "enter"⟩] := by decide +kernel
  obtain ⟨files, text, _, there, holds, _, transcript, _⟩ :=
    transcript_of_run (MemoryFiles.honest "m.txt") restedStation { text := "RECORD:m" } rfl
      ⟨"RECORD:", rfl, rfl⟩ (by decide +kernel) rfl (by decide +kernel) halfRecorded
      (by decide +kernel)
  rw [added] at transcript
  rw [there]
  exact ⟨added, text, congrArg some holds, transcript⟩

end Station

end Keyfob
